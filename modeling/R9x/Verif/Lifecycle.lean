import R9x.Verif.Waiting

/-!
# Births and deaths next to the message system

What `exit_current`, `fault`, `sys_kill`, a spawn, `sys_wait` and `sys_setprio` do to the scheduling
states, the waiting processes and the channels.
-/

namespace R9x.Verif.KernelIpc

open Port.Ipc Aarch64
open Function (update update_of_ne)
open Option (some.injEq)

variable {n m : Nat}

def SharesChannel (kernel : Kernel n m) (id other : ProcId) : Prop :=
  ∃ handle, (kernel.channels handle).isBlockedOn id = true ∧
    (kernel.channels handle).isBlockedOn other = true

instance (kernel : Kernel n m) (id other : ProcId) : Decidable (SharesChannel kernel id other) :=
  inferInstanceAs (Decidable (∃ _, _))

def diedStates (kernel : Kernel n m) (id : ProcId) : ProcId → Option State :=
  fun other =>
  if other = id then (kernel.states id).map fun _ => .exited
  else if SharesChannel kernel id other ∧ kernel.states other = some .blocked then some .runnable
  else kernel.states other

/-- What a death does. -/
structure Died (before : Kernel n m) (id : ProcId) (after : Kernel n m) : Prop where
  states : after.states = diedStates before id
  channels : ∀ handle, after.channels handle =
    if (before.channels handle).isBlockedOn id then (closeSection (before.channels handle)).2
    else before.channels handle
  conts : after.conts = before.conts
  returned : after.returned = before.returned
  counter : after.sched.counter = before.sched.counter

/-- The process an event kills: the first Running one, the current one, or the one named. -/
def victim (kernel : Kernel n m) : Event n m → Option ProcId
  | .exit _ => (kernel.sched.table.position (Table.holds .running)).map Fin.val
  | .fault => kernel.current
  | .kill pid => (kernel.sched.table.sysKillMark pid).map fun _ => pid.toNat
  | _ => none

/-- The cases of an event. -/
inductive StepCase (before : Kernel n m) : Event n m → Kernel n m → Prop
  | ipc (event : IpcEvent m) (after : Kernel n m) (ran : IpcCase before event after) :
    StepCase before (.ipc event) after
  | exit (status : UInt64) (me id : ProcId) (after : Kernel n m)
    (on : before.current = some me) (outside : before.conts me = none)
    (running : before.states id = some .running) (died : Died before id after)
    (dead : victim before (.exit status) = some id) (current : after.current = none) :
    StepCase before (.exit status) after
  | fault (me : ProcId) (after : Kernel n m)
    (on : before.current = some me) (outside : before.conts me = none)
    (running : before.states me = some .running) (died : Died before me after)
    (current : after.current = none) :
    StepCase before .fault after
  | kill (pid : UInt64) (after : Kernel n m) (state : State)
    (alive : before.states pid.toNat = some state) (live : state ≠ .exited)
    (died : Died before pid.toNat after) (current : after.current = before.current) :
    StepCase before (.kill pid) after
  | missed (pid : UInt64)
    (gone : before.states pid.toNat = none ∨ before.states pid.toNat = some .exited) :
    StepCase before (.kill pid) before
  | spawn (slot : Fin n) (prio : Priority) (after : Kernel n m)
    (free : before.states slot.val = none ∨ before.states slot.val = some .exited)
    (states : after.states = update before.states slot.val (some .runnable))
    (conts : after.conts = update before.conts slot.val none)
    (channels : after.channels = before.channels) (current : after.current = before.current)
    (returned : after.returned = before.returned)
    (counter : after.sched.counter = before.sched.counter) :
    StepCase before (.spawn slot prio) after
  | wait (slot : Fin n) (after : Kernel n m) (exited : before.states slot.val = some .exited)
    (states : after.states = update before.states slot.val none)
    (conts : after.conts = before.conts) (channels : after.channels = before.channels)
    (current : after.current = before.current) (returned : after.returned = before.returned)
    (counter : after.sched.counter = before.sched.counter) :
    StepCase before (.wait slot) after
  | setprio (id : ProcId) (prio : Priority) (after : Kernel n m)
    (states : after.states = before.states) (conts : after.conts = before.conts)
    (channels : after.channels = before.channels) (current : after.current = before.current)
    (returned : after.returned = before.returned)
    (counter : after.sched.counter = before.sched.counter) :
    StepCase before (.setprio id prio) after

lemma die_died (kernel : Kernel n m) (id : ProcId) (status : UInt64) :
    Died kernel id (kernel.die id status) := by
  refine ⟨funext fun other => ?_, closeAllFor_channel id _ kernel.channels, rfl, rfl,
    closeLoop_counter id _ _⟩
  have closed := closeAllFor_states id
    { kernel.sched with table := kernel.sched.table.markExited id status } kernel.channels other
  change (closeAllFor id _ kernel.channels).1.table.stateOf other = _
  rw [closed, Table.markExited, Table.stateOf_modify, diedStates]
  by_cases same : other = id
  · subst same
    have exited : (kernel.sched.table.get other).map (fun _ => State.exited) ≠ some .blocked := by
      cases kernel.sched.table.get other <;> simp
    simp only [↓reduceIte, exited, and_false, Kernel.states, Table.stateOf, Option.map_map]
    rfl
  simp only [same, ↓reduceIte]
  rfl

variable {before after : Kernel n m} {id : ProcId}

lemma Died.offCore (died : Died before id after) : Died before id { after with current := none } :=
  ⟨died.states, died.channels, died.conts, died.returned, died.counter⟩

lemma states_update (table : Table n) (slot : Fin n) (process : Option Process) :
    Table.stateOf (update table slot process) =
      update table.stateOf slot.val (process.map Process.state) := by
  funext id
  rw [Table.stateOf_update, Function.update_apply]

variable {event : Event n m}

lemma step_case (sound : ∀ handle, (before.channels handle).Sound)
    (taken : step before event = some after) : StepCase before event after := by
  cases event with
  | ipc event => exact .ipc event after (stepIpc_case sound taken)
  | exit status =>
    cases current : before.current with
    | none => simp [step, current] at taken
    | some me =>
      simp only [step, current, Option.ite_none_right_eq_some, Option.map_eq_some_iff] at taken
      obtain ⟨outside, slot, found, rfl⟩ := taken
      have running := (Table.holds_iff _ .running slot).mp (Table.position_test found)
      exact .exit status me slot.val _ current outside running
        (die_died before slot.val status).offCore (by simp [victim, found]) rfl
  | fault =>
    cases current : before.current with
    | none => simp [step, current] at taken
    | some me =>
      simp only [step, current, Option.ite_none_right_eq_some, some.injEq] at taken
      obtain ⟨⟨outside, running⟩, rfl⟩ := taken
      exact .fault me _ current outside running (die_died before me Table.faultStatus).offCore rfl
  | kill pid =>
    rcases Table.sysKillMark_cases before.sched.table pid with
      ⟨marked, state, killed, alive, live⟩ | ⟨missed, gone⟩
    · simp only [step, killed, some.injEq] at taken
      subst taken
      exact .kill pid _ state alive live (die_died before pid.toNat Table.killStatus) rfl
    simp only [step, missed, some.injEq] at taken
    subst taken
    exact .missed pid gone
  | spawn slot prio =>
    simp only [step, Option.ite_none_right_eq_some, some.injEq] at taken
    obtain ⟨free, rfl⟩ := taken
    exact .spawn slot prio _ ((Table.isFree_iff _ slot).mp free) (states_update _ slot _) rfl
      rfl rfl rfl rfl
  | wait slot =>
    simp only [step, Option.ite_none_right_eq_some, some.injEq] at taken
    obtain ⟨exited, rfl⟩ := taken
    exact .wait slot _ ((Table.holds_iff _ .exited slot).mp exited) (states_update _ slot _) rfl
      rfl rfl rfl rfl
  | setprio id prio =>
    cases taken
    exact .setprio id prio _ (stateOf_modify_same before.sched.table id
      (fun process => { process with prio := process.prio.rebase prio }) fun _ => rfl) rfl rfl rfl
      rfl rfl

/-! ## Waits and regularity -/

lemma blocked_diedStates (kernel : Kernel n m) (id other : ProcId) :
    diedStates kernel id other = some .blocked ↔
      kernel.states other = some .blocked ∧ ¬ (other = id ∨ SharesChannel kernel id other) := by
  unfold diedStates
  by_cases same : other = id
  · subst same
    simp
  by_cases blocked : kernel.states other = some .blocked <;>
    by_cases shared : SharesChannel kernel id other <;> simp [same, blocked, shared]

lemma Died.waiting (died : Died before id after) :
    after.waiting = fun other => if other = id ∨ SharesChannel before id other then none
      else before.waiting other := by
  funext other
  simp only [Kernel.waiting, died.states, died.conts, blocked_diedStates]
  by_cases left : other = id ∨ SharesChannel before id other <;> simp [left]

lemma Died.regular (died : Died before id after) (regular : Regular before)
    (current : ∀ me, after.current = some me → before.current = some me) : Regular after := by
  refine regular.fewer (fun handle => ?_) (fun other waits => ?_) fun me on => .inl (current me on)
  · rw [died.channels]
    split
    · exact (regular.sound handle).close
    · exact regular.sound handle
  · rw [died.states, blocked_diedStates] at waits
    exact ⟨waits.1, congrFun died.conts other⟩

variable {state : Option State}

lemma blocked_update {states : ProcId → Option State} {slot : ProcId}
    (before : states slot ≠ some .blocked) (after : state ≠ some .blocked) (id : ProcId) :
    update states slot state id = some .blocked ↔ states id = some .blocked := by
  by_cases same : id = slot
  · subst same
    simp [before, after]
  · rw [update_of_ne same]

lemma not_blocked_of_free (free : state = none ∨ state = some .exited) : state ≠ some .blocked := by
  rcases free with rfl | rfl <;> simp

lemma StepCase.regular (ran : StepCase before event after) (regular : Regular before) :
    Regular after := by
  cases ran with
  | ipc _ _ ran => exact ran.regular regular
  | exit status me id after on outside running died dead current
  | fault me after on outside running died current =>
    exact died.regular regular fun me on => by rw [current] at on; contradiction
  | kill _ _ _ _ _ died current =>
    exact died.regular regular fun me on => current ▸ on
  | missed => exact regular
  | spawn _ _ _ free states conts channels current =>
    have unblocked := not_blocked_of_free free
    refine regular.fewer (channels ▸ regular.sound) (fun other waits => ?_) fun me on =>
      .inl (current ▸ on)
    rw [states, blocked_update unblocked (by simp)] at waits
    refine ⟨waits, ?_⟩
    rw [conts, update_of_ne]
    rintro rfl
    exact unblocked waits
  | wait _ _ exited states conts channels current =>
    refine regular.fewer (channels ▸ regular.sound) (fun other waits => ?_) fun me on =>
      .inl (current ▸ on)
    rw [states, blocked_update (by simp [exited]) (by simp)] at waits
    exact ⟨waits, congrFun conts other⟩
  | setprio _ _ _ states conts channels current =>
    exact regular.fewer (channels ▸ regular.sound)
      (fun other waits => ⟨states ▸ waits, congrFun conts other⟩) fun me on => .inl (current ▸ on)

lemma waiting_same (blocked : ∀ id, after.states id = some .blocked ↔ before.states id =
    some .blocked)
    (conts : ∀ id, before.states id = some .blocked → after.conts id = before.conts id) :
    after.waiting = before.waiting := by
  funext id
  simp only [Kernel.waiting, blocked id]
  split
  · exact conts id (by assumption)
  · rfl

end R9x.Verif.KernelIpc
