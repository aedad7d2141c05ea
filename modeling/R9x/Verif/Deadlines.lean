import R9x.Verif.Inheritance

/-!
# Deadlines of bounded waits

`block_at` writes a deadline into the slot of the process on the core, and `wake` and
`check_deadlines` clear it when they make the process Runnable.
-/

namespace R9x.Verif.KernelIpc

open Lib Port.Ipc Aarch64
open Function (update update_self update_of_ne)
open Option (map_map ite_none_right_eq_some map_eq_some_iff some.inj some.injEq)

variable {n m : Nat} {before after kernel : Kernel n m} {inner : ChannelInner} {id me : ProcId}
  {call : Call} {event : Event n m} {state : State}

/-! ## States and deadlines of the table -/

/-- The state and the deadline of a slot. -/
abbrev Wait := State × Option UInt64

/-- The state and the deadline of a process. -/
def Wait.ofProcess (process : Process) : Wait := (process.state, process.deadline)

/-- The state and the deadline of a slot number, if it holds a process. -/
def waitOf (table : Table n) (id : ProcId) : Option Wait := (table.get id).map Wait.ofProcess

def Wait.woken (wait : Wait) : Wait := if wait.1 = .blocked then (.runnable, none) else wait

def Wait.slept (limit : Option UInt64) (wait : Wait) : Wait :=
  (if wait.1 = .running then .blocked else wait.1, limit.or wait.2)

section

variable (table : Table n)
include table

lemma stateOf_eq_waitOf (id : ProcId) : table.stateOf id = (waitOf table id).map Prod.fst := by
  unfold Table.stateOf waitOf
  cases table.get id <;> rfl

lemma waitOf_modify (written : ProcId) (change : Process → Process) (turn : Wait → Wait)
    (turns : ∀ process, Wait.ofProcess (change process) = turn (Wait.ofProcess process))
    (read : ProcId) :
    waitOf (table.modify written change) read =
      if read = written then (waitOf table read).map turn else waitOf table read :=
  Table.view_modify Wait.ofProcess table written change turn turns read

lemma waitOf_modify_same (written : ProcId) (change : Process → Process)
    (kept : ∀ process, Wait.ofProcess (change process) = Wait.ofProcess process) :
    waitOf (table.modify written change) = waitOf table := by
  funext read
  have turned := waitOf_modify table written change id kept read
  simpa using turned

lemma waitOf_wake (written read : ProcId) : waitOf (table.wake written) read =
      if read = written then (waitOf table read).map Wait.woken else waitOf table read := by
  apply waitOf_modify
  intro process
  unfold Wait.woken Wait.ofProcess
  split <;> simp_all

lemma waitOf_block (written read : ProcId) : waitOf (table.block written) read =
      if read = written then (waitOf table read).map (Wait.slept none) else waitOf table read := by
  apply waitOf_modify
  intro process
  unfold Wait.slept Wait.ofProcess
  split <;> simp_all

lemma waitOf_blockAt (written : ProcId) (deadline : UInt64) (read : ProcId) :
    waitOf ((table.setDeadline written deadline).block written) read =
      if read = written then (waitOf table read).map (Wait.slept (some deadline))
      else waitOf table read := by
  have written' := waitOf_modify table written
    (fun process => { process with deadline := some deadline })
    (fun wait => (wait.1, some deadline)) (fun _ => rfl) read
  rw [waitOf_block, Table.setDeadline, written']
  split
  · rw [map_map]
    rfl
  · rfl

lemma waitOf_unboost (id : ProcId) : waitOf (table.unboost id) = waitOf table :=
  waitOf_modify_same table id _ fun _ => rfl

end

lemma waitOf_inherit (current : Option ProcId) (receiver : ProcId) (sched : KernSched n) :
    waitOf (inheritPriority current receiver sched).table = waitOf sched.table := by
  unfold inheritPriority
  split
  · split
    · exact waitOf_modify_same sched.table receiver _ fun _ => rfl
    · rfl
  · rfl

lemma waitOf_update (table : Table n) (slot : Fin n) (process : Option Process) (id : ProcId) :
    waitOf (update table slot process) id =
      if id = slot.val then process.map Wait.ofProcess else waitOf table id := by
  rw [waitOf, Table.get_update]
  split <;> rfl

lemma waitOf_markExited (table : Table n) (written : ProcId) (status : UInt64) (read : ProcId) :
    waitOf (table.markExited written status) read =
      if read = written then (waitOf table read).map fun wait => (.exited, wait.2)
      else waitOf table read := waitOf_modify table written
    (fun process => { process with state := .exited, exitStatus := status })
    (fun wait => (.exited, wait.2)) (fun _ => rfl) read

def Wait.expired (now : UInt64) (wait : Wait) : Bool := wait.1 = .blocked ∧ wait.2.any (· ≤ now)

lemma waitOf_checkDeadlines (table : Table n) (now : UInt64) (id : ProcId) :
    waitOf (table.checkDeadlines now) id =
      (waitOf table id).map fun wait => if wait.expired now then (.runnable, none) else wait := by
  rw [waitOf, Table.get_checkDeadlines, map_map, waitOf, map_map]
  congr 1
  funext process
  change Wait.ofProcess (if Table.expired now process then _ else process) =
    if Table.expired now process then _ else Wait.ofProcess process
  split <;> rfl

/-! ## Wakes -/

def OnlyWakes (before after : Table n) : Prop :=
  ∀ id, waitOf after id = waitOf before id ∨
    ∃ limit, waitOf before id = some (.blocked, limit) ∧ waitOf after id = some (.runnable, none)

lemma OnlyWakes.same {before after : Table n} (kept : waitOf after = waitOf before) :
    OnlyWakes before after := fun id => .inl (congrFun kept id)

lemma OnlyWakes.trans {first second third : Table n} (early : OnlyWakes first second)
    (late : OnlyWakes second third) : OnlyWakes first third := by
  intro id
  rcases early id with kept | ⟨limit, blocked, woken⟩
  · rw [← kept]
    exact late id
  right
  rcases late id with kept | ⟨_, again, -⟩
  · exact ⟨limit, blocked, kept.trans woken⟩
  · cases again.symm.trans woken

lemma OnlyWakes.wake (table : Table n) (id : ProcId) : OnlyWakes table (table.wake id) := by
  intro read
  rw [waitOf_wake]
  split
  · cases waitOf table read with
    | none => exact .inl rfl
    | some wait =>
      obtain ⟨state, limit⟩ := wait
      by_cases blocked : state = .blocked
      · subst blocked
        exact .inr ⟨limit, rfl, rfl⟩
      · simp [Wait.woken, blocked]
  · exact .inl rfl

lemma OnlyWakes.tick (table : Table n) (now : UInt64) :
    OnlyWakes table (table.checkDeadlines now) := by
  intro id
  rw [waitOf_checkDeadlines]
  cases waitOf table id with
  | none => exact .inl rfl
  | some wait =>
    obtain ⟨state, limit⟩ := wait
    by_cases late : Wait.expired now (state, limit)
    · have blocked : state = .blocked := by
        simp only [Wait.expired, decide_eq_true_eq] at late
        exact late.1
      subst blocked
      exact .inr ⟨limit, rfl, by simp [late]⟩
    · simp [late]

lemma OnlyWakes.wakeWaiter (sched : KernSched n) (waiter : Option ProcId) :
    OnlyWakes sched.table (R9x.Port.Ipc.wakeWaiter sched waiter).table := by
  cases waiter with
  | none => exact .same rfl
  | some id => exact .wake sched.table id

lemma OnlyWakes.close (sched : KernSched n) (inner : ChannelInner) :
    OnlyWakes sched.table (R9x.Port.Ipc.close sched inner).1.table :=
  (OnlyWakes.wakeWaiter sched inner.recvWaiter).trans (OnlyWakes.wakeWaiter _ inner.sendWaiter)

lemma OnlyWakes.closeIfBlockedOn (id : ProcId) (system : KernSched n × Channels m)
    (handle : Fin m) :
    OnlyWakes system.1.table (R9x.Aarch64.closeIfBlockedOn id system handle).1.table := by
  unfold R9x.Aarch64.closeIfBlockedOn
  split
  · exact .close system.1 (system.2 handle)
  · exact .same rfl

lemma OnlyWakes.closeAllFor (id : ProcId) (sched : KernSched n) (channels : Channels m) :
    OnlyWakes sched.table (R9x.Aarch64.closeAllFor id sched channels).1.table := by
  have loop : ∀ (handles : List (Fin m)) (system : KernSched n × Channels m),
    OnlyWakes system.1.table
        (handles.foldl (R9x.Aarch64.closeIfBlockedOn id) system).1.table := by
    intro handles
    induction handles with
    | nil => exact fun system => .same rfl
    | cons handle _ ih =>
      intro system
      exact (OnlyWakes.closeIfBlockedOn id system handle).trans (ih _)
  exact loop (List.finRange m) (sched, channels)

/-! ## One pass of a call -/

/-- What a pass of a call does to the waits: a call that returns has only woken others, and a caller
that blocks writes the deadline of its call. -/
inductive PassWaits (limit : Option UInt64) (me : ProcId) (before : Table n) :
    Verdict → Table n → Prop
  | returned (answer : Answer) (after : Table n) (wakes : OnlyWakes before after) :
    PassWaits limit me before (.returned answer) after
  | blocked (after : Table n)
    (waits : ∀ id, waitOf after id =
      if id = me then (waitOf before id).map (Wait.slept limit) else waitOf before id) :
    PassWaits limit me before .blocked after

/-- The deadline of a call, if it is bounded. -/
def limitOf : Call → Option UInt64
  | .receiveAt deadline => some deadline
  | _ => none

lemma waitOf_handOver (call : Call) (me receiver : ProcId) (sched : KernSched n) :
    waitOf (handOver call me receiver sched).table = waitOf sched.table := by
  cases call with
  | send => exact waitOf_inherit (some me) receiver sched
  | _ => rfl

lemma waitOf_sleepIn (call : Call) (me : ProcId) (sched : KernSched n) (id : ProcId) :
    waitOf (sleepIn call me sched).table id =
      if id = me then (waitOf sched.table id).map (Wait.slept (limitOf call))
      else waitOf sched.table id := by
  cases call with
  | receiveAt deadline => exact waitOf_blockAt sched.table me deadline id
  | _ => exact waitOf_block sched.table me id

lemma pass_waits (sound : inner.Sound) (call : Call) (me : ProcId) (sched : KernSched n) :
    PassWaits (limitOf call) me sched.table (call.pass me sched inner).verdict
      (call.pass me sched inner).sched.table := by
  have ran := pass_ran sound call me sched
  generalize call.pass me sched inner = progress at ran
  cases ran with
  | handoff _ receiver =>
    apply PassWaits.returned
    exact (OnlyWakes.same (waitOf_handOver call me receiver sched)).trans (.wake _ receiver)
  | full _ sends => exact .blocked _ (sends ▸ waitOf_block sched.table me)
  | popped => exact .returned _ _ (.wakeWaiter sched _)
  | sleeps =>
    apply PassWaits.blocked
    intro id
    rw [waitOf_sleepIn]
    exact congrArg (fun waits => if id = me then Option.map _ (waits id) else waits id)
      (waitOf_unboost sched.table me)
  | close => exact .returned _ _ (.close sched inner)
  | _ => exact .returned _ _ (.same rfl)

/-! ## One event -/

/-- The state and the deadline of every slot. -/
abbrev Kernel.wait (kernel : Kernel n m) : ProcId → Option Wait := waitOf kernel.sched.table

/-- What an event does to a process: the state and the deadline of its slot, and the call it is
suspended in. A process that blocks leaves the core. -/
inductive Shift (before after : Kernel n m) (event : Event n m) (id : ProcId) :
    Option Wait → Option (Fin m × Call) → Prop
  | same : Shift before after event id (before.wait id) (before.conts id)
  | returned (handle : Fin m) (call : Call)
    (passing : before.passing event = some (id, handle, call)) :
    Shift before after event id (before.wait id) none
  | woken (limit : Option UInt64) (blocked : before.wait id = some (.blocked, limit)) :
    Shift before after event id (some (.runnable, none)) (before.conts id)
  | selected (limit : Option UInt64) (runnable : before.wait id = some (.runnable, limit)) :
    Shift before after event id (some (.running, limit)) (before.conts id)
  | demoted (limit : Option UInt64) (running : before.wait id = some (.running, limit)) :
    Shift before after event id (some (.runnable, limit)) (before.conts id)
  | slept (handle : Fin m) (call : Call) (inner : ChannelInner)
    (passing : before.passing event = some (id, handle, call))
    (ran : PassCase call id before.sched.counter (before.channels handle) .blocked [] inner)
    (off : after.current = none) :
    Shift before after event id ((before.wait id).map (Wait.slept (limitOf call)))
      (some (handle, call))
  | marked (state : State) (limit : Option UInt64) (alive : before.wait id = some (state, limit))
    (live : state ≠ .exited) :
    Shift before after event id (some (.exited, limit)) (before.conts id)
  | born (slot : Fin n) (prio : Priority) (spawned : event = .spawn slot prio)
    (claimed : slot.val = id) : Shift before after event id (some (.runnable, none)) none
  | reaped : Shift before after event id none (before.conts id)

lemma OnlyWakes.shift {table : Table n} (wakes : OnlyWakes before.sched.table table)
    (after : Kernel n m) (event : Event n m) (id : ProcId)
    : Shift before after event id (waitOf table id) (before.conts id) := by
  rcases wakes id with kept | ⟨limit, blocked, woken⟩
  · rw [kept]
    exact .same
  rw [woken]
  exact .woken limit blocked

lemma OnlyWakes.of_awake {before after : Table n} (wakes : OnlyWakes before after)
    (awake : before.stateOf id ≠ some .blocked) : waitOf after id = waitOf before id := by
  rcases wakes id with kept | ⟨_, blocked, -⟩
  · exact kept
  rw [stateOf_eq_waitOf, blocked] at awake
  exact absurd rfl awake

variable {now : UInt64} {wakes : List ProcId} {handle : Fin m}

lemma PassCase.blocked_alone {inner after : ChannelInner}
    (ran : PassCase call me now inner .blocked wakes after) : wakes = [] := by
  cases ran <;> rfl

lemma Performed.shift (performed : Performed before me handle call after)
    (regular : Regular before) (current : before.current = some me)
    (passing : before.passing event = some (me, handle, call)) (id : ProcId) :
    Shift before after event id (after.wait id) (after.conts id) := by
  have waits := pass_waits (regular.sound handle) call me before.sched
  cases performed with
  | returned _ _ _ pass _ _ _ conts =>
    rw [pass] at waits
    cases waits with
    | returned _ _ woke =>
      rw [conts]
      by_cases same : id = me
      · subst same
        have kept : after.wait id = before.wait id := woke.of_awake (regular.awake id current)
        rw [update_self, kept]
        exact .returned handle call passing
      rw [update_of_ne same]
      exact woke.shift after event id
  | blocked _ inner pass ran _ _ conts current' =>
    have alone := ran.blocked_alone
    subst alone
    rw [pass] at waits
    cases waits with
    | blocked _ slept =>
      have here : after.wait id = _ := slept id
      rw [conts, here]
      by_cases same : id = me
      · subst same
        rw [update_self, if_pos rfl]
        exact .slept handle call inner passing ran current'
      rw [update_of_ne same, if_neg same]
      exact .same

lemma waitOf_demote (table : Table n) (current : Option ProcId) (id : ProcId) :
    waitOf (demote table current) id = waitOf table id ∨ ∃ limit, waitOf table id =
      some (.running, limit) ∧
        waitOf (demote table current) id = some (.runnable, limit) := by
  cases current with
  | none => exact .inl rfl
  | some old =>
    have written : waitOf (demote table (some old)) id = if id = old then (waitOf table id).map
      fun wait =>
          if wait.1 = .running then (.runnable, wait.2) else wait
        else waitOf table id := by
      apply waitOf_modify
      intro process
      unfold Wait.ofProcess
      split <;> simp_all
    rw [written]
    split
    · cases waitOf table id with
      | none => exact .inl rfl
      | some wait =>
        obtain ⟨state, limit⟩ := wait
        by_cases running : state = .running
        · subst running
          exact .inr ⟨limit, rfl, rfl⟩
        · simp [running]
    · exact .inl rfl

lemma stepIpc_shift {event : IpcEvent m} (regular : Regular before)
    (taken : stepIpc before event = some after) (id : ProcId) :
    Shift before after (.ipc event) id (after.wait id) (after.conts id) := by
  have ran := stepIpc_case regular.sound taken
  cases ran with
  | switch next _ runnable =>
    simp only [stepIpc, ite_none_right_eq_some, some.injEq] at taken
    obtain ⟨-, rfl⟩ := taken
    have written := waitOf_modify (demote before.sched.table before.current) next
      (fun process => { process with state := .running }) (fun wait => (.running, wait.2))
      (fun _ => rfl) id
    change Shift before _ _ id (waitOf (Table.modify _ next _) id) (before.conts id)
    rw [written]
    have demoted := waitOf_demote before.sched.table before.current id
    by_cases same : id = next
    · subst same
      rw [if_pos rfl]
      rw [Kernel.states, stateOf_eq_waitOf] at runnable
      obtain ⟨⟨_, limit⟩, held, rfl⟩ := map_eq_some_iff.mp runnable
      rcases demoted with kept | ⟨_, running, -⟩
      · rw [kept, held]
        exact .selected limit held
      · cases held.symm.trans running
    rw [if_neg same]
    rcases demoted with kept | ⟨limit, running, left⟩
    · rw [kept]
      exact .same
    rw [left]
    exact .demoted limit running
  | call _ _ _ _ current _ performed =>
    exact performed.shift regular current (by simp [Kernel.passing, current]) id
  | resume _ _ _ _ current inside performed =>
    exact performed.shift regular current (by simp [Kernel.passing, current, inside]) id
  | interrupt handle call _ _ _ _ _ pass _ _ _ conts _ returned =>
    have waits := pass_waits (regular.sound handle) call n before.sched
    rw [pass] at waits
    rw [conts]
    cases waits with
    | returned _ _ woke => exact woke.shift _ _ id
  | clock => exact .same
  | tick =>
    cases taken
    exact (OnlyWakes.tick before.sched.table before.sched.counter).shift _ (.ipc .tick) id

lemma die_waits (kernel : Kernel n m) (id : ProcId) (status : UInt64) (other : ProcId) :
    if other = id then
      (kernel.die id status).wait other = (kernel.wait other).map fun wait => (.exited, wait.2)
    else (kernel.die id status).wait other = kernel.wait other ∨
      ∃ limit, kernel.wait other = some (.blocked, limit) ∧
        (kernel.die id status).wait other = some (.runnable, none) := by
  have closes := OnlyWakes.closeAllFor id
    { kernel.sched with table := kernel.sched.table.markExited id status } kernel.channels other
  have marked := waitOf_markExited kernel.sched.table id status other
  rw [marked] at closes
  split
  · rename_i same
    simp only [same, ↓reduceIte] at closes ⊢
    rcases closes with kept | ⟨_, blocked, -⟩
    · exact kept
    obtain ⟨_, _, wrong⟩ := map_eq_some_iff.mp blocked
    cases wrong
  rename_i different
  simp only [different, ↓reduceIte] at closes
  exact closes

lemma die_shift (alive : before.states id = some state) (live : state ≠ .exited) (status : UInt64)
    (after : Kernel n m) (event : Event n m) (other : ProcId) :
    Shift before after event other ((before.die id status).wait other) (before.conts other) := by
  have waits := die_waits before id status other
  split at waits
  · rename_i same
    subst same
    rw [Kernel.states, stateOf_eq_waitOf] at alive
    obtain ⟨⟨found, limit⟩, held, rfl⟩ := map_eq_some_iff.mp alive
    rw [waits, Kernel.wait, held]
    exact .marked found limit held live
  rcases waits with kept | ⟨limit, blocked, woken⟩
  · rw [kept]
    exact .same
  rw [woken]
  exact .woken limit blocked

lemma step_shift (regular : Regular before) (taken : step before event = some after) (id : ProcId) :
    Shift before after event id (after.wait id) (after.conts id) := by
  cases event with
  | ipc => exact stepIpc_shift regular taken id
  | exit status =>
    cases current : before.current with
    | none => simp [step, current] at taken
    | some =>
      simp only [step, current, ite_none_right_eq_some, map_eq_some_iff] at taken
      obtain ⟨_, slot, found, rfl⟩ := taken
      have running := (Table.holds_iff _ .running slot).mp (Table.position_test found)
      exact die_shift running (by decide) status _ _ id
  | fault =>
    cases current : before.current with
    | none => simp [step, current] at taken
    | some =>
      simp only [step, current, ite_none_right_eq_some, some.injEq] at taken
      obtain ⟨⟨_, running⟩, rfl⟩ := taken
      exact die_shift running (by decide) Table.faultStatus _ _ id
  | kill pid =>
    rcases Table.sysKillMark_cases before.sched.table pid with
      ⟨marked, state, killed, alive, live⟩ | ⟨missed, gone⟩
    · simp only [step, killed, some.injEq] at taken
      subst taken
      exact die_shift alive live Table.killStatus _ _ id
    simp only [step, missed, some.injEq] at taken
    subst taken
    exact .same
  | spawn slot prio =>
    simp only [step, ite_none_right_eq_some, some.injEq] at taken
    obtain ⟨free, rfl⟩ := taken
    change Shift before _ _ id (waitOf (update before.sched.table slot _) id)
      (update before.conts slot.val none id)
    rw [waitOf_update, Function.update_apply]
    split
    · rename_i same
      exact .born slot prio rfl same.symm
    · exact .same
  | wait slot =>
    simp only [step, ite_none_right_eq_some, some.injEq] at taken
    obtain ⟨_, rfl⟩ := taken
    change Shift before _ _ id (waitOf (update before.sched.table slot _) id) (before.conts id)
    rw [waitOf_update]
    split
    · exact .reaped
    · exact .same
  | setprio other prio =>
    cases taken
    have kept := waitOf_modify_same before.sched.table other
      (fun process => { process with prio := process.prio.rebase prio }) fun _ => rfl
    change Shift before _ _ id (waitOf (Table.modify _ _ _) id) (before.conts id)
    rw [kept]
    exact .same

lemma StepCase.current (ran : StepCase before event after) (on : after.current = some me) :
    before.current = some me ∨ before.states me = some .runnable := by
  have performed : ∀ caller handle call, Performed before caller handle call after →
      before.current = some me := by
    intro caller handle call did
    cases did with
    | returned _ _ _ _ _ _ _ _ current =>
      rw [← current]
      exact on
    | blocked wakes inner pass ran channels states conts current =>
      rw [current] at on
      contradiction
  cases ran with
  | ipc _ after ran =>
    cases ran with
    | switch _ _ runnable _ current =>
      rw [current] at on
      cases on
      exact .inr runnable
    | call caller handle call after _ _ did | resume caller handle call after _ _ did =>
      exact .inl (performed caller handle call did)
    | interrupt _ _ _ _ _ after _ _ _ channels states conts current
    | tick _ _ _ _ current => exact .inl (current ▸ on)
    | clock => exact .inl on
  | exit status caller id after _ outside running died dead current
  | fault caller after _ outside running died current =>
    rw [current] at on
    contradiction
  | missed => exact .inl on
  | kill _ after _ _ _ _ current | spawn _ _ after _ _ _ _ current | wait _ after _ _ _ _ current
  | setprio _ _ _ _ _ _ current => exact .inl (current ▸ on)

/-! ## Bounded waits -/

def Kernel.deadline (kernel : Kernel n m) (id : ProcId) : Option UInt64 :=
    (kernel.wait id).bind Prod.snd

/-- The deadline of the `receive_at` that a process is Blocked in. -/
def Kernel.boundedBy (kernel : Kernel n m) (id : ProcId) : Option UInt64 :=
  (kernel.waiting id).bind fun pending => limitOf pending.2

/-- The process whose `receive_at` finds the channel open, the queue empty and its deadline ahead in
an event, and so is about to block. -/
def Kernel.dozes (kernel : Kernel n m) (event : Event n m) : Option ProcId :=
  (kernel.passing event).bind fun (me, handle, call) =>
    if (limitOf call).any (kernel.sched.counter < ·) ∧ (kernel.channels handle).closed = false ∧
      (kernel.channels handle).queue.len = 0 then some me else none

/-- A kernel with a note of the bounded wait that each Exited process was Blocked in when it was
marked. -/
structure Watch (n m : Nat) where
  kernel : Kernel n m
  marked : ProcId → Option UInt64

/-- One event, with the note taken of the processes that it marks Exited. -/
def Watch.step (watch : Watch n m) (event : Event n m) : Option (Watch n m) :=
  (KernelIpc.step watch.kernel event).map fun after =>
    ⟨after, fun id =>
      if after.states id ≠ some .exited then none
      else if watch.kernel.states id = some .exited then watch.marked id
      else watch.kernel.boundedBy id⟩

/-- What deadlines are for. -/
structure DeadlinesRight (watch : Watch n m) : Prop where
  waits : ∀ id deadline, watch.kernel.deadline id = some deadline →
    watch.kernel.boundedBy id = some deadline ∨
      watch.kernel.states id = some .exited ∧ watch.marked id = some deadline
  expire : ∀ ticked, stepIpc watch.kernel .tick = some ticked → ∀ id,
    (watch.kernel.states id ≠ some .runnable ∧ ticked.states id = some .runnable) ↔
      watch.kernel.states id = some .blocked ∧
        (watch.kernel.deadline id).any (· ≤ watch.kernel.sched.counter) = true
  clear : ∀ ticked, stepIpc watch.kernel .tick = some ticked → ∀ id, ticked.deadline id =
      if watch.kernel.states id = some .blocked ∧
        (watch.kernel.deadline id).any (· ≤ watch.kernel.sched.counter) then none
      else watch.kernel.deadline id
  spare : ∀ ticked, stepIpc watch.kernel .tick = some ticked → ∀ id handle call,
    watch.kernel.waiting id = some (handle, call) → limitOf call = none → ticked.states id =
      some .blocked

/-- The process whose `receive_at` is about to block is Running, if its slot is not empty. -/
def Watch.Sober (watch : Watch n m) (event : Event n m) : Prop :=
  ∀ me ∈ watch.kernel.dozes event, watch.kernel.states me = some .running ∨ watch.kernel.states me =
    none

instance (watch : Watch n m) (event : Event n m) : Decidable (watch.Sober event) :=
  inferInstanceAs (Decidable (∀ me ∈ watch.kernel.dozes event, _))

/-- The invariant of such runs. -/
structure Timed (watch : Watch n m) : Prop where
  regular : Regular watch.kernel
  held : ∀ id state deadline, watch.kernel.wait id = some (state, some deadline) →
    (state = .blocked ∧ ∃ handle, watch.kernel.conts id = some (handle, .receiveAt deadline)) ∨
      state = .exited ∧ watch.marked id = some deadline
  free : ∀ me, watch.kernel.current = some me → watch.kernel.deadline me = none ∧
    watch.marked me = none

lemma boundedBy_iff (kernel : Kernel n m) (id : ProcId) (deadline : UInt64) :
    kernel.boundedBy id = some deadline ↔ kernel.states id = some .blocked ∧
      ∃ handle, kernel.conts id = some (handle, .receiveAt deadline) := by
  unfold Kernel.boundedBy Kernel.waiting
  by_cases blocked : kernel.states id = some .blocked
  · cases kernel.conts id with
    | none => simp
    | some pending =>
      obtain ⟨_, call⟩ := pending
      cases call <;> simp [limitOf, blocked]
  · simp [blocked]

variable {limit : Option UInt64}

lemma Kernel.deadline_eq (held : kernel.wait id = some (state, limit)) :
    kernel.deadline id = limit := by
  rw [Kernel.deadline, held]
  rfl

lemma Kernel.states_eq (held : kernel.wait id = some (state, limit)) :
    kernel.states id = some state :=
  (stateOf_eq_waitOf kernel.sched.table id).trans (congrArg (Option.map Prod.fst) held)

variable {deadline : UInt64}

lemma Kernel.wait_of_deadline (found : kernel.deadline id = some deadline) :
    ∃ state, kernel.wait id = some (state, some deadline) := by
  obtain ⟨⟨state, _⟩, held, rfl⟩ := Option.bind_eq_some_iff.mp found
  exact ⟨state, held⟩

lemma Kernel.wait_of_state (found : kernel.states id = some state)
    : ∃ limit, kernel.wait id = some (state, limit) := by
  rw [Kernel.states, stateOf_eq_waitOf] at found
  obtain ⟨⟨_, limit⟩, held, rfl⟩ := map_eq_some_iff.mp found
  exact ⟨limit, held⟩

lemma expired_iff (kernel : Kernel n m) (id : ProcId) :
    kernel.expired id = true ↔ kernel.states id = some .blocked ∧
      (kernel.deadline id).any (· ≤ kernel.sched.counter) = true := by
  simp only [Kernel.expired, Kernel.states, Kernel.deadline, Table.stateOf, Kernel.wait, waitOf]
  cases kernel.sched.table.get id with
  | none => simp
  | some => simp [Table.expired, Wait.ofProcess]

lemma tick_deadline {kernel ticked : Kernel n m} (taken : stepIpc kernel .tick = some ticked)
    (id : ProcId) :
    ticked.deadline id = if kernel.expired id then none else kernel.deadline id := by
  cases taken
  have turned := waitOf_checkDeadlines kernel.sched.table kernel.sched.counter id
  change (waitOf (kernel.sched.table.checkDeadlines kernel.sched.counter) id).bind Prod.snd = _
  rw [turned]
  cases found : kernel.sched.table.get id with
  | none => simp [waitOf, Kernel.deadline, Kernel.wait, found]
  | some process =>
    have same : Wait.expired kernel.sched.counter (Wait.ofProcess process) = kernel.expired id := by
      rw [Kernel.expired, found]
      rfl
    by_cases late : kernel.expired id <;>
      simp [waitOf, Kernel.deadline, Kernel.wait, found, same, late]

variable {watch : Watch n m}

lemma Timed.right (timed : Timed watch) : DeadlinesRight watch where
  waits id deadline found := by
    obtain ⟨state, held⟩ := Kernel.wait_of_deadline found
    rw [boundedBy_iff, Kernel.states_eq held]
    rcases timed.held id state deadline held with ⟨rfl, inside⟩ | ⟨rfl, noted⟩
    · exact .inl ⟨rfl, inside⟩
    · exact .inr ⟨rfl, noted⟩
  expire ticked taken id := by
    have states : ticked.states id = if watch.kernel.expired id then some .runnable
      else watch.kernel.states id := by
      cases taken
      exact states_tick watch.kernel id
    rw [← expired_iff, states]
    by_cases late : watch.kernel.expired id
    · have blocked := ((expired_iff watch.kernel id).mp late).1
      simp [late, blocked]
    · simp [late]
  clear ticked taken id := by
    simp only [tick_deadline taken id, ← expired_iff]
  spare ticked taken id handle call waits unbounded := by
    have blocked : watch.kernel.states id = some .blocked := by
      apply (timed.regular.waiting_isSome id).mp
      rw [waits]
      rfl
    have inside : watch.kernel.conts id = some (handle, call) := by
      rw [← waits, Kernel.waiting, if_pos blocked]
    have untimed : watch.kernel.expired id = false := by
      by_contra late
      obtain ⟨-, reached⟩ := (expired_iff watch.kernel id).mp (by simpa using late)
      obtain ⟨deadline, found, -⟩ := Option.any_eq_true _ _ |>.mp reached
      obtain ⟨state, held⟩ := Kernel.wait_of_deadline found
      have state' := some.inj ((Kernel.states_eq held).symm.trans blocked)
      rcases timed.held id state deadline held with ⟨-, _, other⟩ | ⟨exited, -⟩
      · have same := some.inj (inside.symm.trans other)
        cases same
        cases unbounded
      · cases exited.symm.trans state'
    cases taken
    have states := states_tick watch.kernel id
    rw [untimed] at states
    exact states.trans blocked

lemma Watch.marked_step {next : Watch n m} (taken : watch.step event = some next) :
    KernelIpc.step watch.kernel event = some next.kernel ∧ ∀ id,
      next.marked id = if next.kernel.states id ≠ some .exited then none
        else if watch.kernel.states id = some .exited then watch.marked id
        else watch.kernel.boundedBy id := by
  obtain ⟨_, stepped, rfl⟩ := map_eq_some_iff.mp taken
  exact ⟨stepped, fun id => rfl⟩

lemma Timed.unbounded (timed : Timed watch)
    (coming : watch.kernel.current = some me ∨ watch.kernel.states me = some .runnable) :
    watch.kernel.deadline me = none ∧ watch.kernel.boundedBy me = none ∧
      (watch.kernel.states me = some .exited → watch.marked me = none) := by
  have awake : watch.kernel.states me ≠ some .blocked := by
    rcases coming with on | runnable
    · exact timed.regular.awake me on
    rw [runnable]
    simp
  have unblocked : watch.kernel.boundedBy me = none := by
    rw [Kernel.boundedBy, Kernel.waiting, if_neg awake]
    rfl
  rcases coming with on | runnable
  · exact ⟨(timed.free me on).1, unblocked, fun _ => (timed.free me on).2⟩
  refine ⟨?_, unblocked, fun exited => ?_⟩
  · obtain ⟨limit, held⟩ := Kernel.wait_of_state runnable
    rw [Kernel.deadline_eq held]
    cases limit with
    | none => rfl
    | some deadline =>
      rcases timed.held me .runnable deadline held with ⟨wrong, -⟩ | ⟨wrong, -⟩
      · cases wrong
      · cases wrong
  · rw [runnable] at exited
    cases exited

lemma limitOf_some (limited : limitOf call = some deadline) : call = .receiveAt deadline := by
  cases call with
  | receiveAt => exact congrArg Call.receiveAt (some.inj limited)
  | _ => cases limited

lemma PassCase.dozes (passing : kernel.passing event = some (me, handle, .receiveAt deadline))
    (ran : PassCase (.receiveAt deadline) me kernel.sched.counter (kernel.channels handle) .blocked
      [] inner) : kernel.dozes event = some me := by
  cases ran with
  | full sends => cases sends
  | empty _ opened empty early =>
    simp [Kernel.dozes, passing, limitOf, early deadline rfl, opened, empty]

lemma passing_current (passing : kernel.passing event = some (me, handle, call)) :
    kernel.current = some me := by
  unfold Kernel.passing at passing
  split at passing
  · obtain ⟨_, on, same⟩ := map_eq_some_iff.mp passing
    rw [on, (Prod.mk.inj same).1]
  · obtain ⟨_, on, rest⟩ := Option.bind_eq_some_iff.mp passing
    obtain ⟨_, _, same⟩ := map_eq_some_iff.mp rest
    rw [on, (Prod.mk.inj same).1]
  · cases passing

/-- Every event in which the process about to block is Running keeps the invariant. -/
lemma step_timed (watch : Watch n m) (event : Event n m) (next : Watch n m)
    (timed : Timed watch) (sober : watch.Sober event) (taken : watch.step event = some next) :
    Timed next := by
  obtain ⟨stepped, marked⟩ := Watch.marked_step taken
  have ran := step_case timed.regular.sound stepped
  refine ⟨ran.regular timed.regular, fun id state deadline held => ?_, fun me on => ?_⟩
  · have shift := step_shift timed.regular stepped id
    have noted := marked id
    rw [Kernel.states_eq held] at noted
    rw [held] at shift
    generalize next.kernel.conts id = pending at shift ⊢
    generalize after : some (state, some deadline) = wait at shift
    cases shift with
    | same =>
      rcases timed.held id state deadline after.symm with ⟨rfl, inside⟩ | ⟨rfl, before⟩
      · exact .inl ⟨rfl, inside⟩
      rw [Kernel.states_eq after.symm] at noted
      exact .inr ⟨rfl, noted.trans before⟩
    | returned _ _ passing =>
      have none := (timed.free id (passing_current passing)).1
      rw [Kernel.deadline_eq after.symm] at none
      cases none
    | woken | born | reaped => cases after
    | selected limit active | demoted limit active =>
      cases after
      rcases timed.held id _ deadline active with ⟨wrong, -⟩ | ⟨wrong, -⟩
      · cases wrong
      · cases wrong
    | slept handle call _ passing ran =>
      obtain ⟨⟨_, limit⟩, before, turned⟩ := map_eq_some_iff.mp after.symm
      obtain ⟨rfl, ended⟩ := Prod.mk.inj turned
      cases limited : limitOf call with
      | none =>
        rw [limited] at ended
        have alone : limit = some deadline := ended
        subst alone
        have current := passing_current passing
        have none := (timed.free id current).1
        rw [Kernel.deadline_eq before] at none
        cases none
      | some =>
        obtain rfl := limitOf_some limited
        cases ended
        have running := sober id (PassCase.dozes passing ran)
        rw [Kernel.states_eq before] at running
        rcases running with running | wrong
        · cases running
          exact .inl ⟨rfl, handle, rfl⟩
        · cases wrong
    | marked old _ alive live =>
      cases after
      rw [Kernel.states_eq alive] at noted
      rcases timed.held id old deadline alive with ⟨rfl, inside⟩ | ⟨wrong, -⟩
      · have bounded := (boundedBy_iff watch.kernel id deadline).mpr
          ⟨Kernel.states_eq alive, inside⟩
        exact .inr ⟨rfl, noted.trans bounded⟩
      · exact absurd wrong live
  · have coming := ran.current on
    obtain ⟨untimed, unbounded, before⟩ := timed.unbounded coming
    have shift := step_shift timed.regular stepped me
    constructor
    · rw [Kernel.deadline]
      generalize next.kernel.wait me = wait at shift ⊢
      generalize next.kernel.conts me = pending at shift
      cases shift with
      | same | returned => exact untimed
      | woken | born | reaped => rfl
      | slept handle call inner passing ran off =>
        rw [off] at on
        contradiction
      | selected limit held | demoted limit held | marked old limit held =>
        exact (Kernel.deadline_eq held).symm.trans untimed
    · rw [marked]
      split
      · rfl
      split
      · exact before (by assumption)
      · exact unbounded

lemma not_returned {inner after : ChannelInner} {answer : Answer} (opened : inner.closed = false)
    (empty : inner.queue.len = 0) (early : now < deadline) :
    ¬ PassCase (.receiveAt deadline) me now inner (.returned answer) wakes after := by
  intro ran
  cases ran with
  | same _ reason =>
    rcases reason with closed | nonBlocking | ⟨_, same, reached, -⟩
    · cases opened.symm.trans closed
    · cases nonBlocking
    cases same
    exact absurd early (UInt64.not_lt.mpr reached)
  | handoff msg receiver posts | queued msg posts => rcases posts with wrong | wrong <;> cases wrong
  | popped => omega
  | close wrong => cases wrong

lemma dozes_wait (regular : Regular before) (dozes : before.dozes event = some me)
    (taken : step before event = some after) :
    before.current = some me ∧ ∃ deadline, after.wait me = (before.wait me).map
      (Wait.slept (some deadline)) := by
  obtain ⟨⟨caller, handle, call⟩, passing, about⟩ := Option.bind_eq_some_iff.mp dozes
  simp only [ite_none_right_eq_some, some.injEq] at about
  obtain ⟨⟨ahead, opened, empty⟩, rfl⟩ := about
  refine ⟨passing_current passing, ?_⟩
  obtain ⟨deadline, limited, early⟩ := Option.any_eq_true _ _ |>.mp ahead
  obtain rfl := limitOf_some limited
  refine ⟨deadline, ?_⟩
  cases event with
  | ipc =>
    cases stepIpc_prios regular taken with
    | kept unpassed => cases unpassed.symm.trans passing
    | passed other channel call passes _ performed =>
      obtain ⟨rfl, rfl, rfl⟩ : other = caller ∧ channel = handle ∧ call = .receiveAt deadline := by
        simpa using passes.symm.trans passing
      have waits := pass_waits (regular.sound channel) (.receiveAt deadline) other before.sched
      cases performed with
      | returned _ _ _ _ ran =>
        exact absurd ran (not_returned opened empty (by simpa using early))
      | blocked _ _ pass =>
        rw [pass] at waits
        cases waits with
        | blocked _ slept =>
          have here := slept other
          rw [if_pos rfl] at here
          exact here
  | _ => cases passing

lemma sober_of_right (watch : Watch n m) (event : Event n m) (next : Watch n m)
    (timed : Timed watch) (taken : watch.step event = some next) (right : DeadlinesRight next) :
    watch.Sober event := by
  obtain ⟨stepped, marked⟩ := Watch.marked_step taken
  intro me dozes
  obtain ⟨current, deadline, after⟩ := dozes_wait timed.regular dozes stepped
  cases held : watch.kernel.wait me with
  | none =>
    right
    exact (stateOf_eq_waitOf watch.kernel.sched.table me).trans
      (congrArg (Option.map Prod.fst) held)
  | some wait =>
    obtain ⟨state, _⟩ := wait
    left
    by_contra stopped
    rw [Kernel.states_eq held] at stopped
    have other : state ≠ .running := fun same => stopped (congrArg some same)
    have left : next.kernel.wait me = some (state, some deadline) := by
      rw [after, held]
      simp [Wait.slept, other]
    have awake := timed.regular.awake me current
    rw [Kernel.states_eq held] at awake
    rcases right.waits me deadline (Kernel.deadline_eq left) with bounded | ⟨exited, noted⟩
    · have blocked := ((boundedBy_iff next.kernel me deadline).mp bounded).1
      rw [Kernel.states_eq left] at blocked
      exact awake blocked
    rw [marked, exited] at noted
    rw [Kernel.states_eq left] at exited
    rw [Kernel.states_eq held, exited] at noted
    cases (timed.free me current).2.symm.trans noted

/-- In every run from a fresh kernel without deadlines, with every process and channel event: the
deadlines are right in every state reached exactly if every process whose `receive_at` is about to
block is Running. -/
theorem deadlines_right_iff {start : Kernel n m} (fresh : Fresh start)
    (untimed : ∀ id, start.deadline id = none) (events : List (Event n m)) :
    Throughout Watch.step DeadlinesRight ⟨start, fun _ => none⟩ events ↔
      Along Watch.step Watch.Sober ⟨start, fun _ => none⟩ events := by
  apply throughout_iff_along step_timed (fun watch timed => timed.right) sober_of_right
  refine ⟨fresh.exact.regular, fun id state deadline held => ?_, fun me on => ?_⟩
  · have found := untimed id
    rw [Kernel.deadline_eq held] at found
    cases found
  · rw [fresh.idle] at on
    cases on

def boundedWait : List (Event 2 1) :=
  [.spawn 0 128, .ipc (.switch 0), .ipc (.call 0 (.receiveAt 5)), .ipc (.clock 5), .ipc .tick]

/-- Its deadlines are right. -/
theorem deadlines_right_bounded : (run Watch.step ⟨noProcesses, fun _ => none⟩ boundedWait).isSome =
    true ∧
      Throughout Watch.step DeadlinesRight ⟨noProcesses, fun _ => none⟩ boundedWait :=
  ⟨by decide, (deadlines_right_iff noProcesses_fresh (fun _ => by
    simp [Kernel.deadline, noProcesses, Kernel.wait, waitOf, Table.get]) boundedWait).mpr
      (by decide)⟩

def killThenWait : List (Event 2 1) :=
  [.spawn 0 128, .ipc (.switch 0), .kill 0, .ipc (.call 0 (.receiveAt 5))]

/-- It has a deadline, Exited, without having been Blocked. -/
theorem own_kill_leaves_deadline :
    ∃ watch, run Watch.step ⟨noProcesses, fun _ => none⟩ killThenWait = some watch ∧
      watch.kernel.deadline 0 = some 5 ∧ watch.kernel.states 0 = some .exited ∧
      watch.marked 0 = none ∧ ¬ DeadlinesRight watch := by
  refine ⟨_, rfl, rfl, rfl, rfl, fun right => ?_⟩
  rcases right.waits 0 5 rfl with bounded | ⟨-, noted⟩
  · cases bounded
  · cases noted

end R9x.Verif.KernelIpc
