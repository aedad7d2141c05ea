import R9x.Verif.Lifecycle
import R9x.Verif.WaiterSlots

/-!
# Priority inheritance across hand-offs

A `send` that finds a recorded receiver raises it to the sender's level if the sender outranks it,
and `boost` refuses a process that is boosted already.
-/

namespace R9x.Verif.KernelIpc

open Lib Port.Ipc Aarch64
open IpcScheduler (priority)
open PriorityState (boost unboost)
open Option (map_eq_some_iff)

variable {n m : Nat} {id me receiver : ProcId} {prio : PriorityState} {before after : Kernel n m}
  {sched : KernSched n} {handle : Fin m} {call : Call}

/-! ## Priorities of the table -/

/-- The priorities of a slot number, if it holds a process. -/
def prioOf (table : Table n) (id : ProcId) : Option PriorityState := (table.get id).map Process.prio

/-- The priorities of every slot. -/
abbrev Kernel.prios (kernel : Kernel n m) : ProcId → Option PriorityState :=
    prioOf kernel.sched.table

section

variable (table : Table n)

lemma prioOf_modify (written : ProcId) (change : Process → Process)
    (rank : PriorityState → PriorityState)
    (ranks : ∀ process, (change process).prio = rank process.prio) (read : ProcId) :
    prioOf (table.modify written change) read =
      if read = written then (prioOf table read).map rank else prioOf table read :=
  Table.view_modify Process.prio table written change rank ranks read

lemma prioOf_modify_same (written : ProcId) (change : Process → Process)
    (kept : ∀ process, (change process).prio = process.prio) :
    prioOf (table.modify written change) = prioOf table := by
  funext read
  have ranked := prioOf_modify table written change id kept read
  simpa using ranked

lemma prioOf_wake (id : ProcId) : prioOf (table.wake id) = prioOf table := by
  apply prioOf_modify_same
  intro _
  split <;> rfl

lemma prioOf_block (id : ProcId) : prioOf (table.block id) = prioOf table := by
  apply prioOf_modify_same
  intro _
  split <;> rfl

lemma prioOf_setDeadline (id : ProcId) (deadline : UInt64) :
    prioOf (table.setDeadline id deadline) = prioOf table :=
  prioOf_modify_same table id _ fun _ => rfl

end

lemma prioOf_wakeWaiter (sched : KernSched n) (waiter : Option ProcId) :
    prioOf (wakeWaiter sched waiter).table = prioOf sched.table := by
  cases waiter with
  | none => rfl
  | some id => exact prioOf_wake sched.table id

section

variable (table : Table n)

lemma prioOf_demote (current : Option ProcId) : prioOf (demote table current) = prioOf table := by
  cases current with
  | none => rfl
  | some =>
    apply prioOf_modify_same
    intro _
    split <;> rfl

lemma prioOf_checkDeadlines (now : UInt64) : prioOf (table.checkDeadlines now) = prioOf table := by
  funext id
  rw [prioOf, Table.get_checkDeadlines, Option.map_map]
  congr 1
  funext process
  simp only [Function.comp_apply]
  split <;> rfl

lemma prioOf_boost (written : ProcId) (level : Priority) (read : ProcId) :
    prioOf (table.boost written level) read =
      if read = written then (prioOf table read).map (boost · level)
      else prioOf table read :=
  prioOf_modify table written (fun process => { process with prio := process.prio.boost level })
    (boost · level) (fun _ => rfl) read

lemma prioOf_unboost (written read : ProcId) : prioOf (table.unboost written) read =
      if read = written then (prioOf table read).map unboost
      else prioOf table read :=
  prioOf_modify table written (fun process => { process with prio := process.prio.unboost })
    unboost (fun _ => rfl) read

lemma prioOf_update (slot : Fin n) (process : Process) (id : ProcId) :
    prioOf (Function.update table slot (some process)) id =
      if id = slot.val then some process.prio else prioOf table id := by
  rw [prioOf, Table.get_update]
  split <;> rfl

end

lemma priority_of_prioOf (found : prioOf sched.table id = some prio) :
    priority sched id = prio.effective := by
  obtain ⟨_, held, same⟩ := map_eq_some_iff.mp found
  change (sched.table.effectivePriority id).getD 255 = _
  simp [Table.effectivePriority, held, same]

/-! ## One pass of a call -/

/-- What a pass of a call does to the priorities: a hand-off of `send` passes the sender's level on,
a receive that blocks drops the caller's boost, and everything else keeps them. -/
inductive PrioCase (call : Call) (me : ProcId) (sched : KernSched n) (inner : ChannelInner)
    (progress : Progress (KernSched n)) : Prop
  | kept (prios : prioOf progress.sched.table = prioOf sched.table)
    (noHandoff : ∀ msg receiver, call = .send msg → inner.closed = false → inner.recvWaiter ≠
      some receiver)
    (noBlock : call.receives = true → progress.verdict ≠ .blocked)
  | handoff (msg : Message) (receiver : ProcId) (sends : call = .send msg)
    (waiting : inner.recvWaiter = some receiver)
    (returns : progress.verdict = .returned (.ok none))
    (prios : prioOf progress.sched.table = prioOf (inheritPriority (some me) receiver sched).table)
    (woken : progress.sched.table.stateOf receiver ≠ some .blocked)
  | dropped (receives : call.receives = true) (opened : inner.closed = false)
    (empty : inner.queue.len = 0) (blocks : progress.verdict = .blocked)
    (prios : prioOf progress.sched.table = prioOf (sched.table.unboost me))

lemma wake_not_blocked (table : Table n) (id : ProcId) :
    (table.wake id).stateOf id ≠ some .blocked := by
  rw [stateOf_wake]
  split
  · simp
  rename_i active
  simpa using active

lemma prioOf_sleepIn (call : Call) (me : ProcId) (sched : KernSched n) :
    prioOf (sleepIn call me sched).table = prioOf sched.table := by
  cases call with
  | receiveAt deadline =>
    change prioOf ((sched.table.setDeadline me deadline).block me) = _
    rw [prioOf_block, prioOf_setDeadline]
  | _ => exact prioOf_block sched.table me

lemma pass_prios {inner : ChannelInner} (sound : inner.Sound) (call : Call) (me : ProcId)
    (sched : KernSched n) : PrioCase call me sched inner (call.pass me sched inner) := by
  have ran := pass_ran sound call me sched
  generalize call.pass me sched inner = progress at ran
  cases ran with
  | handoff msg receiver posts _ waiting =>
    rcases posts with rfl | rfl
    · exact .handoff msg receiver rfl waiting rfl (prioOf_wake _ receiver)
        (wake_not_blocked _ receiver)
    · exact .kept (prioOf_wake sched.table receiver) (by simp) (by simp)
  | full _ sends _ free =>
    exact .kept (prioOf_block sched.table me) (by simp [free]) (by simp [sends, Call.receives])
  | popped _ _ takes =>
    refine .kept (prioOf_wakeWaiter sched _) ?_ (by simp)
    rintro _ _ rfl
    simp [Call.receives] at takes
  | closed reason | queued _ _ _ reason | refused _ reason | nothing reason | timeout _ reason =>
    exact .kept rfl (by simp [reason]) (by simp)
  | sleeps receives opened empty =>
    exact .dropped receives opened empty rfl (prioOf_sleepIn call me _)
  | close closes =>
    refine .kept ?_ (by simp [closes]) (by simp)
    simp only [R9x.Port.Ipc.close, closeSection, prioOf_wakeWaiter]

/-! ## What inheritance does to one process -/

def passedOn (sched : KernSched n) (me receiver id : ProcId) (prio : PriorityState) :
    PriorityState :=
  if id = receiver ∧ priority sched me < priority sched receiver then
    prio.boost (priority sched me)
  else prio

lemma prioOf_inherit (sched : KernSched n) (me receiver id : ProcId) :
    prioOf (inheritPriority (some me) receiver sched).table id =
      (prioOf sched.table id).map (passedOn sched me receiver id) := by
  unfold inheritPriority passedOn
  dsimp only
  by_cases outranks : priority sched me < priority sched receiver
  · rw [if_pos outranks]
    refine (prioOf_boost sched.table receiver _ id).trans ?_
    by_cases same : id = receiver
    · simp [same, outranks]
    · simp [same]
  · simp [outranks]

lemma passedOn_base (sched : KernSched n) (me receiver id : ProcId) (prio : PriorityState) :
    (passedOn sched me receiver id prio).base = prio.base := by
  unfold passedOn boost
  split
  · split <;> rfl
  · rfl

lemma passedOn_lower (held : prioOf sched.table id = some prio) (me receiver : ProcId) :
    (passedOn sched me receiver id prio).effective ≤ prio.effective := by
  unfold passedOn
  split
  · rename_i boosts
    obtain ⟨rfl, outranks⟩ := boosts
    rw [priority_of_prioOf held] at outranks
    unfold boost
    split
    · exact UInt8.le_of_lt outranks
    · exact UInt8.le_refl _
  · exact UInt8.le_refl _

lemma passedOn_other {id : ProcId} (other : id ≠ receiver) (sched : KernSched n)
    (me : ProcId) (prio : PriorityState) : passedOn sched me receiver id prio = prio :=
  if_neg fun boosts => other boosts.1

lemma passedOn_reaches (held : prioOf sched.table receiver = some prio)
    (based : prio.effective = prio.base)
    (me : ProcId) :
    (passedOn sched me receiver receiver prio).effective ≤ priority sched me := by
  unfold passedOn
  split
  · simp [boost, PriorityState.isBoosted, based]
  rename_i outranked
  rw [priority_of_prioOf held] at outranked
  exact UInt8.not_lt.mp fun outranks => outranked ⟨rfl, outranks⟩

lemma unboost_restores {table : Table n} (found : prioOf (table.unboost me) id = some prio) :
    ∃ before, prioOf table id = some before ∧
      (if id = me then prio.effective = prio.base else prio = before) := by
  rw [prioOf_unboost] at found
  by_cases same : id = me
  · rw [if_pos same] at found
    obtain ⟨before, held, rfl⟩ := map_eq_some_iff.mp found
    exact ⟨before, held, by rw [if_pos same]; rfl⟩
  rw [if_neg same] at found
  exact ⟨prio, found, by rw [if_neg same]⟩

/-! ## The invariant -/

/-- The priorities a kernel should have: nobody below its base, and nobody Blocked in a receive
boosted. -/
structure Ranked (kernel : Kernel n m) : Prop where
  urgent : ∀ id prio, kernel.prios id = some prio → prio.effective ≤ prio.base
  based : ∀ id handle call prio, kernel.waiting id = some (handle, call) →
    call.receives = true → kernel.prios id = some prio → prio.effective = prio.base

lemma Ranked.same (ranked : Ranked before) (prios : after.prios = before.prios)
    (waiting : ∀ id, after.waiting id = none ∨ after.waiting id = before.waiting id) :
    Ranked after := by
  constructor
  · rw [prios]
    exact ranked.urgent
  · intro id handle call prio waits receives found
    rw [prios] at found
    rcases waiting id with idle | kept
    · rw [idle] at waits
      contradiction
    rw [kept] at waits
    exact ranked.based id handle call prio waits receives found

/-- A pass by the current process keeps the ranks. -/
lemma Ranked.performed (ranked : Ranked before)
    (regular : Regular before) (running : before.current = some me)
    (performed : Performed before me handle call after) : Ranked after := by
  have ranks := pass_prios (regular.sound handle) call me before.sched
  have awake := regular.awake me running
  cases performed with
  | returned answer wakes inner pass ran channels states conts =>
    rw [pass] at ranks
    have waiting := Performed.waiting_returned awake states conts
    have fewer : ∀ id, after.waiting id = none ∨ after.waiting id = before.waiting id := by
      intro _
      rw [waiting]
      dsimp only
      split
      · exact .inl rfl
      · exact .inr rfl
    cases ranks with
    | kept prios => exact ranked.same prios fewer
    | handoff msg receiver sends recorded returns prios woken =>
      constructor
      · intro id _ found
        rw [Kernel.prios, prios, prioOf_inherit] at found
        obtain ⟨old, held, rfl⟩ := map_eq_some_iff.mp found
        rw [passedOn_base]
        exact UInt8.le_trans (passedOn_lower held me receiver) (ranked.urgent id old held)
      · intro id handle call prio waits receives found
        have other : id ≠ receiver := by
          rintro rfl
          rw [Kernel.waiting, if_neg woken] at waits
          contradiction
        rw [Kernel.prios, prios, prioOf_inherit] at found
        obtain ⟨old, held, rfl⟩ := map_eq_some_iff.mp found
        rw [passedOn_other other]
        rcases fewer id with idle | kept
        · rw [idle] at waits
          contradiction
        rw [kept] at waits
        exact ranked.based id handle call old waits receives held
    | dropped _ _ _ blocks => cases blocks
  | blocked wakes inner pass ran channels states conts =>
    rw [pass] at ranks
    have waiting := Performed.waiting_blocked awake states conts
    have others : ∀ id, id ≠ me → after.waiting id = before.waiting id := by
      intro _ other
      rw [waiting, Function.update_of_ne other]
    cases ranks with
    | kept prios noHandoff noBlock =>
      constructor
      · rw [Kernel.prios, prios]
        exact ranked.urgent
      · intro id handle' call' prio waits receives found
        rw [Kernel.prios, prios] at found
        by_cases same : id = me
        · rw [same, waiting, Function.update_self] at waits
          split at waits
          · cases waits
            exact absurd rfl (noBlock receives)
          · contradiction
        rw [others id same] at waits
        exact ranked.based id handle' call' prio waits receives found
    | handoff _ _ _ _ returns => cases returns
    | dropped _ _ _ _ prios =>
      constructor
      · intro id _ found
        rw [Kernel.prios, prios] at found
        obtain ⟨old, held, restored⟩ := unboost_restores found
        split at restored
        · exact UInt8.le_of_eq restored
        rw [restored]
        exact ranked.urgent id old held
      · intro id handle' call' prio waits receives found
        rw [Kernel.prios, prios] at found
        obtain ⟨old, held, restored⟩ := unboost_restores found
        split at restored
        · exact restored
        rename_i other
        rw [others id other] at waits
        rw [restored]
        exact ranked.based id handle' call' old waits receives held

/-! ## Whole runs -/

/-- Spawns and steps of the message system: everything but deaths, reaping and priority-setting. -/
def Event.messaging : Event n m → Bool
  | .ipc _ => true
  | .spawn _ _ => true
  | _ => false

/-- The process, channel and call of which an event runs a pass. -/
def Kernel.passing (kernel : Kernel n m) : Event n m → Option (ProcId × Fin m × Call)
  | .ipc (.call handle call) => kernel.current.map fun me => (me, handle, call)
  | .ipc .resume => kernel.current.bind fun me => (kernel.conts me).map fun pending => (me, pending)
  | _ => none

/-- The event is a pass of `receive` or `receive_at` by the process, on an open channel with nothing
queued. -/
def Kernel.findsEmpty (kernel : Kernel n m) (id : ProcId) (event : Event n m) : Bool :=
  (kernel.passing event).any fun (me, handle, call) =>
    me = id ∧ call.receives ∧ !(kernel.channels handle).closed ∧
      (kernel.channels handle).queue.len = 0

/-- A process runs at least as urgently as a level. -/
def Kernel.RunsAt (kernel : Kernel n m) (id : ProcId) (level : Priority) : Prop :=
  ∃ prio, kernel.prios id = some prio ∧ prio.effective ≤ level

/-- The invariant of such runs. -/
structure Orderly (kernel : Kernel n m) : Prop where
  regular : Regular kernel
  ranked : Ranked kernel
  alive : ∀ id, kernel.states id ≠ some .exited

lemma IpcCase.alive {event : IpcEvent m} (ran : IpcCase before event after)
    (alive : ∀ id, before.states id ≠ some .exited) (id : ProcId)
    : after.states id ≠ some .exited := by
  have woke : ∀ wakes, woken before.states wakes id ≠ some .exited := by
    intro _
    unfold woken
    split
    · simp
    · exact alive id
  have performed : ∀ me handle call, Performed before me handle call after →
      after.states id ≠ some .exited := by
    intro _ _ _ did
    cases did with
    | returned _ wakes _ _ _ _ states =>
      rw [states]
      exact woke wakes
    | blocked _ _ _ _ _ states =>
      rw [states, slept]
      split
      · simp
      · exact alive id
  cases ran with
  | switch _ _ _ states =>
    rw [states, selected]
    split
    · simp
    split
    · simp
    · exact alive id
  | call me handle call after current outside did
  | resume me handle call after current inside did =>
    exact performed me handle call did
  | interrupt _ _ _ wakes _ _ _ _ _ _ states =>
    rw [states]
    exact woke wakes
  | clock => exact alive id
  | tick _ states =>
    rw [states]
    dsimp only
    split
    · simp
    · exact alive id

/-- What a step of the message system does to the priorities: a pass of the current process's call,
or nothing. -/
inductive IpcPrios (before : Kernel n m) (event : IpcEvent m) (after : Kernel n m) : Prop
  | kept (unpassed : before.passing (.ipc event) = none) (prios : after.prios = before.prios)
    (waiting : ∀ id, after.waiting id = none ∨ after.waiting id = before.waiting id)
  | passed (me : ProcId) (handle : Fin m) (call : Call)
    (passing : before.passing (.ipc event) = some (me, handle, call))
    (current : before.current = some me) (performed : Performed before me handle call after)

lemma stepIpc_prios {event : IpcEvent m} (regular : Regular before)
    (taken : stepIpc before event = some after) : IpcPrios before event after := by
  have ran := stepIpc_case regular.sound taken
  cases ran with
  | switch next _ runnable states current _ conts =>
    refine .kept rfl ?_ fun id => .inr (congrFun (waiting_switch runnable states conts) id)
    simp only [stepIpc, Option.ite_none_right_eq_some, Option.some.injEq] at taken
    rw [← taken.2]
    have selects := prioOf_modify_same (demote before.sched.table before.current) next
      (fun process => { process with state := .running }) fun _ => rfl
    exact selects.trans (prioOf_demote before.sched.table before.current)
  | call me handle call _ current _ performed =>
    exact .passed me handle call (by simp [Kernel.passing, current]) current performed
  | resume me handle call _ current inside performed =>
    exact .passed me handle call (by simp [Kernel.passing, current, inside]) current performed
  | interrupt handle call _ _ _ _ nonBlocking pass _ _ states conts =>
    have ranks := pass_prios (regular.sound handle) call n before.sched
    rw [pass] at ranks
    refine .kept rfl ?_ fun id => ?_
    · simp only [Call.nonBlocking, Bool.and_eq_true, Bool.not_eq_true'] at nonBlocking
      cases ranks with
      | kept prios => exact prios
      | handoff _ _ sends =>
        rw [sends] at nonBlocking
        cases nonBlocking.1
      | dropped _ _ _ blocks => cases blocks
    · rw [waiting_woken states fun id _ => congrFun conts id]
      dsimp only
      split
      · exact .inl rfl
      · exact .inr rfl
  | clock => exact .kept rfl rfl fun id => .inr rfl
  | tick _ states _ conts =>
    refine .kept rfl ?_ fun id => ?_
    · cases taken
      exact prioOf_checkDeadlines before.sched.table before.sched.counter
    · rw [waiting_tick states conts]
      dsimp only
      split
      · exact .inl rfl
      · exact .inr rfl

lemma spawn_prios {slot : Fin n} {prio : Priority} (alive : ∀ id, before.states id ≠ some .exited)
    (taken : step before (.spawn slot prio) = some after) :
    before.prios slot.val = none ∧
      ∀ id, after.prios id = if id = slot.val then some (.new prio) else before.prios id := by
  simp only [step, Option.ite_none_right_eq_some, Option.some.injEq] at taken
  obtain ⟨free, rfl⟩ := taken
  constructor
  · rcases (Table.isFree_iff before.sched.table slot).mp free with vacant | exited
    · simpa [Kernel.prios, prioOf, Table.stateOf] using vacant
    · exact absurd exited (alive slot.val)
  · intro id
    exact prioOf_update before.sched.table slot (Table.newProcess prio) id

lemma Performed.prioCase
    (performed : Performed before me handle call after) (sound : (before.channels handle).Sound) :
    ∃ verdict inner, PrioCase call me before.sched (before.channels handle) ⟨verdict, after.sched,
      inner⟩ := by
  have ranks := pass_prios sound call me before.sched
  cases performed with
  | returned answer wakes inner pass | blocked wakes inner pass => exact ⟨_, inner, pass ▸ ranks⟩

lemma step_orderly (before : Kernel n m) (event : Event n m) (after : Kernel n m)
    (orderly : Orderly before) (admitted : event.messaging = true)
    (taken : step before event = some after) : Orderly after := by
  have ran := step_case orderly.regular.sound taken
  have regular := ran.regular orderly.regular
  cases ran with
  | ipc _ _ ran =>
    refine ⟨regular, ?_, ran.alive orderly.alive⟩
    cases stepIpc_prios orderly.regular taken with
    | kept _ prios waiting => exact orderly.ranked.same prios waiting
    | passed _ _ _ _ current performed =>
      exact orderly.ranked.performed orderly.regular current performed
  | spawn _ _ after free states conts =>
    have unblocked := not_blocked_of_free free
    have prios := (spawn_prios orderly.alive taken).2
    have waiting : after.waiting = before.waiting := by
      apply waiting_same
      · intro _
        rw [states, blocked_update unblocked (by simp)]
      · intro _ blocked
        rw [conts, Function.update_of_ne]
        rintro rfl
        exact unblocked blocked
    refine ⟨regular, ⟨fun id held found => ?_, fun id handle call held waits receives found => ?_⟩,
      fun id => ?_⟩
    · rw [prios] at found
      split at found
      · cases found
        exact UInt8.le_refl _
      · exact orderly.ranked.urgent id held found
    · rw [prios] at found
      split at found
      · cases found
        rfl
      rw [waiting] at waits
      exact orderly.ranked.based id handle call held waits receives found
    · rw [states, Function.update_apply]
      split
      · simp
      · exact orderly.alive id
  | exit | fault | kill | missed | wait | setprio => cases admitted

lemma runsAt_step {event : Event n m} {level : Priority} (runs : before.RunsAt id level)
    (orderly : Orderly before) (admitted : event.messaging = true)
    (busy : before.findsEmpty id event = false) (taken : step before event = some after)
    : after.RunsAt id level := by
  obtain ⟨prio, held, urgent⟩ := runs
  cases event with
  | ipc =>
    cases stepIpc_prios orderly.regular taken with
    | kept _ prios => exact ⟨prio, by rw [prios]; exact held, urgent⟩
    | passed me handle _ passing _ performed =>
      obtain ⟨_, _, ranks⟩ := performed.prioCase (orderly.regular.sound handle)
      cases ranks with
      | kept prios => exact ⟨prio, by rw [Kernel.prios, prios]; exact held, urgent⟩
      | handoff _ receiver _ _ _ prios =>
        refine ⟨passedOn before.sched me receiver id prio, ?_,
          UInt8.le_trans (passedOn_lower held me receiver) urgent⟩
        rw [Kernel.prios, prios, prioOf_inherit]
        exact map_eq_some_iff.mpr ⟨prio, held, rfl⟩
      | dropped receives opened empty _ prios =>
        have other : id ≠ me := by
          rintro rfl
          simp [Kernel.findsEmpty, passing, receives, opened, empty] at busy
        refine ⟨prio, ?_, urgent⟩
        rw [Kernel.prios, prios, prioOf_unboost, if_neg other]
        exact held
  | spawn slot =>
    obtain ⟨vacant, prios⟩ := spawn_prios orderly.alive taken
    have other : id ≠ slot.val := by
      rintro rfl
      rw [vacant] at held
      contradiction
    exact ⟨prio, by rw [prios, if_neg other]; exact held, urgent⟩
  | exit | fault | kill | wait | setprio => cases admitted

lemma handoff_reaches {event : Event n m} {me : ProcId} {msg : Message} {pending : Call}
    (orderly : Orderly before) (passing : before.passing event = some (me, handle, .send msg))
    (opened : (before.channels handle).closed = false)
    (recorded : (before.channels handle).recvWaiter = some receiver)
    (waits : before.waiting receiver = some (handle, pending)) (receives : pending.receives = true)
    (taken : step before event = some after) :
    after.RunsAt receiver (priority before.sched me) := by
  obtain ⟨prio, held⟩ : ∃ prio, before.prios receiver = some prio := by
    have blocked := (orderly.regular.waiting_isSome receiver).mp (by rw [waits]; rfl)
    obtain ⟨process, found, -⟩ := map_eq_some_iff.mp blocked
    exact ⟨process.prio, by simp [Kernel.prios, prioOf, found]⟩
  have based := orderly.ranked.based receiver handle pending prio waits receives held
  cases event with
  | ipc =>
    cases stepIpc_prios orderly.regular taken with
    | kept unpassed => cases unpassed.symm.trans passing
    | passed sender channel call passes _ performed =>
      obtain ⟨rfl, rfl, rfl⟩ : sender = me ∧ channel = handle ∧ call = .send msg := by
        simpa using passes.symm.trans passing
      obtain ⟨_, _, ranks⟩ := performed.prioCase (orderly.regular.sound channel)
      cases ranks with
      | kept _ noHandoff => exact absurd recorded (noHandoff msg receiver rfl opened)
      | handoff _ other _ found _ prios =>
        obtain rfl := Option.some.inj (found.symm.trans recorded)
        refine ⟨passedOn before.sched sender other other prio, ?_,
          passedOn_reaches held based sender⟩
        rw [Kernel.prios, prios, prioOf_inherit]
        exact map_eq_some_iff.mpr ⟨prio, held, rfl⟩
      | dropped takes => cases takes
  | _ => cases passing

lemma Fresh.orderly {kernel : Kernel n m} (fresh : Fresh kernel)
    (vacant : ∀ slot, kernel.sched.table slot = none) : Orderly kernel := by
  have nobody : ∀ id, kernel.sched.table.get id = none := by
    intro _
    unfold Table.get
    split
    · exact vacant _
    · rfl
  have unranked : ∀ id, kernel.prios id = none := by
    intro _
    rw [Kernel.prios, prioOf, nobody]
    rfl
  refine ⟨fresh.exact.regular, ⟨fun id prio found => ?_, fun id _ _ prio _ _ found => ?_⟩, fun id =>
    ?_⟩
  · rw [unranked] at found
    contradiction
  · rw [unranked] at found
    contradiction
  · rw [Kernel.states, Table.stateOf, nobody]
    simp

/-- In every run of spawns at any priorities and of the message system, from a kernel without
processes: every process is at least as urgent as its base, and at its base while it is Blocked in
`receive` or `receive_at`; and when a `send` hands a message to a receiver that is Blocked in one of
them on the channel, the receiver then runs at least as urgently as the sender, until it next finds
a queue empty in one of them. -/
theorem handoff_inherits {start : Kernel n m} (fresh : Fresh start)
    (vacant : ∀ slot, start.sched.table slot = none) (events : List (Event n m))
    (admitted : Along step (fun _ event => event.messaging = true) start events) :
    Throughout step Ranked start events ∧
    ∀ before, run step start events = some before → ∀ event me handle msg receiver pending after,
        before.passing event = some (me, handle, .send msg) →
        (before.channels handle).closed = false →
        (before.channels handle).recvWaiter = some receiver →
        before.waiting receiver = some (handle, pending) → pending.receives = true →
        step before event = some after →
        ∀ later : List (Event n m), Along step (fun kernel event => event.messaging = true ∧
            kernel.findsEmpty receiver event = false) after later →
          Throughout step
            (fun kernel => kernel.RunsAt receiver (priority before.sched me))
            after later := by
  have orderly := fresh.orderly vacant
  constructor
  · exact throughout_of_along step_orderly (fun kernel orderly => orderly.ranked) orderly admitted
  · intro before reached event me _ _ receiver _ after passing opened recorded waits
      receives taken later busy
    have orderlyBefore := run_invariant_along step_orderly orderly admitted reached
    have sending : event.messaging = true := by
      cases event with
      | ipc => rfl
      | _ => cases passing
    have orderlyAfter := step_orderly before event after orderlyBefore sending taken
    have raised := handoff_reaches orderlyBefore passing opened recorded waits receives taken
    have keeps : ∀ (kernel : Kernel n m) (event : Event n m) (next : Kernel n m),
        Orderly kernel ∧ kernel.RunsAt receiver (priority before.sched me) →
        event.messaging = true ∧ kernel.findsEmpty receiver event = false →
        step kernel event = some next →
        Orderly next ∧ next.RunsAt receiver (priority before.sched me) := by
      intro kernel event next held guard taken
      exact ⟨step_orderly kernel event next held.1 guard.1 taken,
        runsAt_step held.2 held.1 guard.1 guard.2 taken⟩
    exact throughout_of_along keeps (fun kernel held => held.2) ⟨orderlyAfter, raised⟩ busy

def noProcesses : Kernel 2 1 where
  sched :=
  ⟨fun _ => none, 0⟩
  current := none
  channels := fun _ => .new
  conts := fun _ => none
  returned := []

lemma noProcesses_fresh : Fresh noProcesses where
  channels _ := ⟨ChannelInner.new_sound, rfl, rfl⟩
  unblocked id := by simp [noProcesses, Kernel.states, Table.stateOf, Table.get]
  outside _ := rfl
  idle := rfl

def serverWaits : List (Event 2 1) :=
  [.spawn 0 200, .spawn 1 100, .ipc (.switch 0), .ipc (.call 0 .receive), .ipc (.switch 1)]

def emptyRequest : Message := Message.new 0 0 []

/-- The client's request raises the server to level 100, and it keeps that level when it takes the
request off the queue. -/
theorem handoff_inherits_server : Throughout step Ranked noProcesses serverWaits ∧
    ∃ before after, run step noProcesses serverWaits = some before ∧
      step before (.ipc (.call 0 (.send emptyRequest))) = some after ∧
      priority before.sched 0 = 200 ∧ priority before.sched 1 = 100 ∧
      Throughout step (fun kernel => kernel.RunsAt 0 100) after
        [.ipc (.switch 0), .ipc .resume] := by
  have inherits := handoff_inherits noProcesses_fresh (fun _ => rfl) serverWaits (by decide)
  refine ⟨inherits.1, _, _, rfl, rfl, by decide, by decide, ?_⟩
  exact inherits.2 _ rfl (.ipc (.call 0 (.send emptyRequest))) 1 0 emptyRequest 0 .receive _ rfl rfl
    rfl rfl rfl rfl [.ipc (.switch 0), .ipc .resume] (by decide)

end R9x.Verif.KernelIpc
