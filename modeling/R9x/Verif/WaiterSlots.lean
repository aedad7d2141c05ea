import R9x.Lib.WaitSlots
import R9x.Verif.Waiting

/-!
# The waiter slots and the Blocked processes

A channel has one slot for a blocked receiver and one for a blocked sender.
-/

namespace R9x.Verif.KernelIpc

open Lib Lib.WaitSlots Port.Ipc Aarch64
open ChannelInner (isBlockedOn)
open Function (update update_self update_of_ne comp_update)
open Kernel (sendSlots recvSlots)

variable {n m : Nat} {call : Call} {kernel before after : Kernel n m} {handle : Fin m}
  {id me : ProcId} {inner : ChannelInner} {wakes : List ProcId} {now : UInt64} {verdict : Verdict}
  {answer : Answer}

/-- A process is Blocked inside a call of a kind on a channel. -/
def BlockedIn (kernel : Kernel n m) (kind : Call → Bool) (id : ProcId) (handle : Fin m) : Prop :=
  kernel.states id = some .blocked ∧ ∃ call, kernel.conts id = some (handle, call) ∧
    kind call = true

/-- The waiter slots of every open channel name exactly the processes Blocked on it. -/
def WaitersExact (kernel : Kernel n m) : Prop :=
  ∀ handle, (kernel.channels handle).closed = false → ∀ id,
    ((kernel.channels handle).recvWaiter = some id ↔ BlockedIn kernel Call.receives id handle) ∧
    ((kernel.channels handle).sendWaiter = some id ↔ BlockedIn kernel Call.sends id handle)

/-- A pass that will block finds its waiter slot free. -/
def SlotFree (call : Call) (now : UInt64) (inner : ChannelInner) : Prop :=
  inner.closed = false →
    match call with
    | .send _ => inner.queue.len = queueCap → inner.sendWaiter = none
    | .receive => inner.queue.len = 0 → inner.recvWaiter = none
    | .receiveAt deadline => inner.queue.len = 0 → now < deadline → inner.recvWaiter = none
    | _ => True

instance (call : Call) (now : UInt64) (inner : ChannelInner) :
    Decidable (SlotFree call now inner) := by
  unfold SlotFree
  cases call <;> infer_instance

/-- Nobody blocks onto a taken slot, and no tick wakes a Blocked process. -/
def SlotsFree (kernel : Kernel n m) : IpcEvent m → Prop
  | .call handle call => SlotFree call kernel.sched.counter (kernel.channels handle)
  | .resume =>
    match kernel.current.bind kernel.conts with
    | some (handle, call) => SlotFree call kernel.sched.counter (kernel.channels handle)
    | none => True
  | .tick => ∀ slot : Fin n, kernel.expired slot = false
  | _ => True

instance (kernel : Kernel n m) (event : IpcEvent m) : Decidable (SlotsFree kernel event) := by
  unfold SlotsFree
  split
  · infer_instance
  · split <;> infer_instance
  · infer_instance
  · infer_instance

lemma blockedIn_iff (kernel : Kernel n m) (kind : Call → Bool) (id : ProcId) (handle : Fin m) :
    BlockedIn kernel kind id handle ↔ WaitsIn kernel.waiting kind id handle := by
  unfold BlockedIn WaitsIn Kernel.waiting
  by_cases blocked : kernel.states id = some .blocked <;> simp [blocked]

lemma sends_not_receives (sends : call.sends = true) : call.receives = false := by
  cases call <;> simp_all [Call.sends, Call.receives]

lemma receives_not_sends (receives : call.receives = true) : call.sends = false := by
  cases call <;> simp_all [Call.sends, Call.receives]

/-- The invariant behind the exact slots: the slots of all channels, open and closed, name exactly
the waiting processes. -/
structure Exact (kernel : Kernel n m) : Prop where
  regular : Regular kernel
  running : ∀ me, kernel.current = some me → kernel.states me = some .running
  recv : Names kernel.recvSlots kernel.waiting Call.receives
  send : Names kernel.sendSlots kernel.waiting Call.sends
  kinds : ∀ id handle call, kernel.waiting id = some (handle, call) → call.receives = true ∨
    call.sends = true

lemma Exact.waitersExact (exact : Exact kernel) : WaitersExact kernel := by
  intro handle _ id
  rw [blockedIn_iff, blockedIn_iff]
  exact ⟨exact.recv handle id, exact.send handle id⟩

lemma Exact.recorded (exact : Exact kernel)
    (recorded : (kernel.channels handle).isBlockedOn id = true) :
    ∃ call, kernel.waiting id = some (handle, call) := by
  simp only [isBlockedOn, Bool.or_eq_true, beq_iff_eq] at recorded
  rcases recorded with receiver | sender
  · obtain ⟨call, waits, -⟩ := (exact.recv handle id).mp receiver
    exact ⟨call, waits⟩
  obtain ⟨call, waits, -⟩ := (exact.send handle id).mp sender
  exact ⟨call, waits⟩

lemma PassCase.wakes_recorded {inner after : ChannelInner}
    (ran : PassCase call me now inner verdict wakes after) (listed : id ∈ wakes) :
    inner.isBlockedOn id = true := by
  cases ran with
  | same | queued | full | empty => cases listed
  | handoff _ _ _ _ waiting =>
    obtain rfl := List.mem_singleton.mp listed
    simp [isBlockedOn, waiting]
  | popped =>
    have sender : inner.sendWaiter = some id := by simpa using listed
    simp [isBlockedOn, sender]
  | close =>
    simpa [isBlockedOn] using listed

lemma PassCase.returned_slots {inner after : ChannelInner}
    (sound : inner.Sound) (ran : PassCase call me now inner (.returned answer) wakes after)
    (id : ProcId) :
    (after.recvWaiter = some id ↔ inner.recvWaiter = some id ∧ id ∉ wakes) ∧
      (after.sendWaiter = some id ↔ inner.sendWaiter = some id ∧ id ∉ wakes) := by
  cases ran with
  | same | queued => simp
  | handoff _ _ _ _ waiting =>
    have noSender := sound.exclusive waiting
    simp [waiting, noSender, eq_comm]
  | popped =>
    have noReceiver : inner.recvWaiter = none := by
      cases recorded : inner.recvWaiter with
      | none => rfl
      | some other =>
        have empty := sound.recvEmpty other recorded
        omega
    simp [noReceiver]
  | close =>
    simp only [closeSection, List.mem_append, Option.mem_toList]
    constructor <;> simp only [reduceCtorEq, false_iff] <;> tauto

lemma slots_update (channels : after.channels = update before.channels handle inner) :
    after.recvSlots = update before.recvSlots handle inner.recvWaiter ∧
      after.sendSlots = update before.sendSlots handle inner.sendWaiter := by
  rw [recvSlots, sendSlots, channels, comp_update, comp_update]
  exact ⟨rfl, rfl⟩

lemma Exact.returned (exact : Exact before) (regular : Regular after)
    (running : ∀ me, after.current = some me → after.states me = some .running)
    (ran : PassCase call me before.sched.counter (before.channels handle) (.returned answer)
      wakes inner)
    (channels : after.channels = update before.channels handle inner)
    (waiting : after.waiting = fun id => if id ∈ wakes then none else before.waiting id) :
    Exact after := by
  have elsewhere : ∀ other id, other ≠ handle →
      (before.channels other).isBlockedOn id = true → id ∉ wakes := by
    intro _ _ different recorded listed
    obtain ⟨_, here⟩ := exact.recorded (ran.wakes_recorded listed)
    obtain ⟨_, there⟩ := exact.recorded recorded
    rw [here] at there
    exact different (Prod.mk.inj (Option.some.inj there)).1.symm
  have slots : ∀ other id, (after.recvSlots other = some id ↔ before.recvSlots other = some id ∧
    id ∉ wakes) ∧
      (after.sendSlots other = some id ↔ before.sendSlots other = some id ∧ id ∉ wakes) := by
    intro other id
    simp only [recvSlots, sendSlots, Function.comp_apply, channels]
    by_cases same : other = handle
    · subst same
      rw [update_self]
      exact PassCase.returned_slots (exact.regular.sound other) ran id
    rw [update_of_ne same]
    constructor <;>
      refine ⟨fun recorded => ⟨recorded, elsewhere other id same ?_⟩, And.left⟩ <;>
      simp [isBlockedOn, recorded]
  refine ⟨regular, running, exact.recv.remove waiting fun other id => (slots other id).1,
    exact.send.remove waiting fun other id => (slots other id).2, fun id other pending waits => ?_⟩
  rw [waiting] at waits
  by_cases listed : id ∈ wakes
  · simp [listed] at waits
  simp only [listed, ↓reduceIte] at waits
  exact exact.kinds id other pending waits

lemma Exact.blocked (exact : Exact before) (regular : Regular after)
    (current : after.current = none)
    (idle : before.waiting me = none)
    (free : SlotFree call before.sched.counter (before.channels handle))
    (ran : PassCase call me before.sched.counter (before.channels handle) .blocked wakes inner)
    (channels : after.channels = update before.channels handle inner)
    (waiting : after.waiting = update before.waiting me (some (handle, call))) :
    Exact after := by
  obtain ⟨recvSlots, sendSlots⟩ := slots_update channels
  have absent : ∀ me, after.current = some me → after.states me = some .running := by
    rw [current]
    exact fun _ on => nomatch on
  have kinds : call.receives = true ∨ call.sends = true → ∀ id other pending,
      after.waiting id = some (other, pending) →
      pending.receives = true ∨ pending.sends = true := by
    intro blocking id other pending waits
    rw [waiting] at waits
    by_cases same : id = me
    · subst same
      rw [update_self] at waits
      cases waits
      exact blocking
    rw [update_of_ne same] at waits
    exact exact.kinds id other pending waits
  cases ran with
  | full sends opened _ full =>
    have slot : before.sendSlots handle = none := by
      cases call with
      | send => exact free opened full
      | _ => cases sends
    refine ⟨regular, absent, ?_, exact.send.record idle slot sends waiting sendSlots,
      kinds (.inr sends)⟩
    exact exact.recv.ignore idle (sends_not_receives sends) waiting
      (recvSlots.trans (Function.update_eq_self handle before.recvSlots))
  | empty receives opened empty early =>
    have slot : before.recvSlots handle = none := by
      cases call with
      | receive => exact free opened empty
      | receiveAt deadline => exact free opened empty (early deadline rfl)
      | _ => cases receives
    refine ⟨regular, absent, exact.recv.record idle slot receives waiting recvSlots, ?_,
      kinds (.inl receives)⟩
    exact exact.send.ignore idle (receives_not_sends receives) waiting
      (sendSlots.trans (Function.update_eq_self handle before.sendSlots))

lemma Exact.performed (exact : Exact before) (on : before.current = some me)
    (free : SlotFree call before.sched.counter (before.channels handle))
    (performed : Performed before me handle call after) : Exact after := by
  have regular := performed.regular exact.regular on
  have awake := exact.regular.awake me on
  have running := exact.running me on
  cases performed with
  | returned _ _ _ _ ran channels states conts current =>
    refine exact.returned regular (fun other stays => ?_) ran channels
      (Performed.waiting_returned awake states conts)
    rw [current] at stays
    simp [states, woken, exact.running other stays]
  | blocked _ _ _ ran channels states conts current =>
    have waiting := Performed.waiting_blocked awake states conts
    rw [if_pos running] at waiting
    exact exact.blocked regular current (exact.regular.waiting_current on) free ran channels waiting

lemma Kernel.blocked_of_expired (late : kernel.expired id = true) :
    kernel.states id = some .blocked := by
  simp only [Kernel.expired, Option.any_eq_true] at late
  obtain ⟨_, found, late⟩ := late
  simp only [Table.expired, Bool.decide_and, Bool.and_eq_true, decide_eq_true_eq] at late
  simp [Kernel.states, Table.stateOf, found, late.1]

lemma Kernel.not_expired (none : ∀ slot : Fin n, kernel.expired slot = false) (id : ProcId) :
    kernel.expired id = false := by
  by_cases bound : id < n
  · exact none ⟨id, bound⟩
  · simp [Kernel.expired, Table.get, bound]

lemma step_exact (before : Kernel n m) (event : IpcEvent m) (after : Kernel n m)
    (exact : Exact before)
    (free : SlotsFree before event) (taken : stepIpc before event = some after) : Exact after := by
  have ran := stepIpc_case exact.regular.sound taken
  have regular := ran.regular exact.regular
  cases ran with
  | switch _ _ runnable states current channels conts =>
    have waiting := waiting_switch runnable states conts
    refine ⟨regular, fun me on => ?_, ?_, ?_, waiting ▸ exact.kinds⟩
    · rw [current] at on
      cases on
      simp [states, selected]
    · rw [recvSlots, channels, waiting]
      exact exact.recv
    · rw [sendSlots, channels, waiting]
      exact exact.send
  | call _ _ _ _ current _ performed =>
    exact exact.performed current free performed
  | resume _ _ _ _ current inside performed =>
    refine exact.performed current ?_ performed
    simpa [SlotsFree, current, inside] using free
  | interrupt _ _ _ _ _ _ _ _ ran channels states conts current returned =>
    refine exact.returned regular (fun other stays => ?_) ran channels
      (waiting_woken states fun id _ => congrFun conts id)
    rw [current] at stays
    simp [states, woken, exact.running other stays]
  | clock => exact ⟨regular, exact.running, exact.recv, exact.send, exact.kinds⟩
  | tick after states channels conts current =>
    have none := Kernel.not_expired free
    have waiting : after.waiting = before.waiting := by
      rw [waiting_tick states conts]
      funext id
      simp [none id]
    refine ⟨regular, fun me on => ?_, ?_, ?_, waiting ▸ exact.kinds⟩
    · rw [current] at on
      simpa [states, none me] using exact.running me on
    · rw [recvSlots, channels, waiting]
      exact exact.recv
    · rw [sendSlots, channels, waiting]
      exact exact.send

def MustBlock (call : Call) (now : UInt64) (inner : ChannelInner) : Prop :=
  call.sends = true ∧ inner.queue.len = queueCap ∨ call.receives = true ∧ inner.queue.len = 0 ∧
      ∀ deadline, call = .receiveAt deadline → now < deadline

lemma PassCase.blocks {inner after : ChannelInner}
    (ran : PassCase call me now inner verdict wakes after)
    (opened : inner.closed = false) (must : MustBlock call now inner) : verdict = .blocked := by
  cases ran with
  | same answer reason =>
    rcases reason with shut | calm | ⟨deadline, rfl, reached, -⟩
    · rw [opened] at shut
      contradiction
    · simp only [Call.nonBlocking, Bool.and_eq_true, Bool.not_eq_true'] at calm
      simp [MustBlock, calm] at must
    rcases must with ⟨sends, -⟩ | ⟨-, -, early⟩
    · cases sends
    · exact absurd (early deadline rfl) (UInt64.not_lt.mpr reached)
  | handoff _ _ posts _ _ empty =>
    rcases must with ⟨-, full⟩ | ⟨receives, -⟩
    · rw [empty] at full
      exact absurd full (by decide)
    · rcases posts with rfl | rfl <;> cases receives
  | queued msg posts =>
    rcases must with ⟨-, full⟩ | ⟨receives, -⟩
    · omega
    · rcases posts with rfl | rfl <;> cases receives
  | full | empty => rfl
  | popped msg takes =>
    rcases must with ⟨sends, -⟩ | ⟨-, empty, -⟩
    · rcases takes with receives | rfl
      · exact absurd sends (by simp [receives_not_sends receives])
      · cases sends
    · omega
  | close close =>
    subst close
    rcases must with ⟨sends, -⟩ | ⟨receives, -⟩
    · cases sends
    · cases receives

lemma blockedIn_of_overwritten (exact : Exact before) (on : before.current = some me)
    (states : after.states = slept before.states me)
    (conts : after.conts = update before.conts me (some (handle, call)))
    {kind : Call → Bool} {old : ProcId} (waits : WaitsIn before.waiting kind old handle) :
    old ≠ me ∧ BlockedIn after kind old handle := by
  have different : old ≠ me := by
    rintro rfl
    exact not_waitsIn (exact.regular.waiting_current on) handle waits
  have waiting := Performed.waiting_blocked (exact.regular.awake me on) states conts
  rw [if_pos (exact.running me on)] at waiting
  refine ⟨different, ?_⟩
  rw [blockedIn_iff, waitsIn_record waiting, if_neg different]
  exact waits

lemma slotFree_of_exact (exact : Exact before) (on : before.current = some me)
    (performed : Performed before me handle call after) (good : WaitersExact after) :
    SlotFree call before.sched.counter (before.channels handle) := by
  intro opened
  cases performed with
  | returned answer wakes inner pass ran =>
    have never : ¬ MustBlock call before.sched.counter (before.channels handle) :=
      fun must => nomatch ran.blocks opened must
    cases call with
    | send => exact fun full => (never (.inl ⟨rfl, full⟩)).elim
    | receive => exact fun empty => (never (.inr ⟨rfl, empty, by simp⟩)).elim
    | receiveAt =>
      exact fun empty early => (never (.inr ⟨rfl, empty, by simpa using early⟩)).elim
    | _ => trivial
  | blocked _ inner _ ran channels states conts =>
    have here : after.channels handle = inner := by rw [channels, update_self]
    have exactHere := good handle
    rw [here] at exactHere
    cases ran with
    | full sends =>
      have slot : (before.channels handle).sendWaiter = none := by
        by_contra taken
        obtain ⟨old, recorded⟩ := Option.ne_none_iff_exists'.mp taken
        obtain ⟨different, waits⟩ :=
          blockedIn_of_overwritten exact on states conts ((exact.send handle old).mp recorded)
        exact different (Option.some.inj ((exactHere opened old).2.mpr waits)).symm
      cases call with
      | send => exact fun _ => slot
      | _ => cases sends
    | empty receives =>
      have slot : (before.channels handle).recvWaiter = none := by
        by_contra taken
        obtain ⟨old, recorded⟩ := Option.ne_none_iff_exists'.mp taken
        obtain ⟨different, waits⟩ :=
          blockedIn_of_overwritten exact on states conts ((exact.recv handle old).mp recorded)
        exact different (Option.some.inj ((exactHere opened old).1.mpr waits)).symm
      cases call with
      | receive => exact fun _ => slot
      | receiveAt => exact fun _ _ => slot
      | _ => cases receives

lemma Exact.waiting_open (exact : Exact kernel) (waits : kernel.waiting id = some (handle, call)) :
    (kernel.channels handle).closed = false ∧ ((kernel.channels handle).recvWaiter = some id ∨
        (kernel.channels handle).sendWaiter = some id) := by
  have recorded : (kernel.channels handle).recvWaiter = some id ∨
      (kernel.channels handle).sendWaiter = some id := by
    rcases exact.kinds id handle call waits with receives | sends
    · exact .inl ((exact.recv handle id).mpr ⟨call, waits, receives⟩)
    · exact .inr ((exact.send handle id).mpr ⟨call, waits, sends⟩)
  refine ⟨?_, recorded⟩
  by_contra shut
  obtain ⟨noReceiver, noSender⟩ :=
    (exact.regular.sound handle).closedFree (Bool.not_eq_false _ ▸ shut)
  simp [noReceiver, noSender] at recorded

lemma slotsFree_of_exact (before : Kernel n m) (event : IpcEvent m) (after : Kernel n m)
    (exact : Exact before) (taken : stepIpc before event = some after)
    (good : WaitersExact after) : SlotsFree before event := by
  have ran := stepIpc_case exact.regular.sound taken
  cases ran with
  | switch | interrupt | clock => trivial
  | call _ _ _ _ current _ performed =>
    exact slotFree_of_exact exact current performed good
  | resume _ _ _ _ current inside performed =>
    have free := slotFree_of_exact exact current performed good
    simpa [SlotsFree, current, inside] using free
  | tick after states channels =>
    intro slot
    by_contra late
    rw [Bool.not_eq_false] at late
    have blocked := Kernel.blocked_of_expired late
    obtain ⟨⟨handle, call⟩, inside⟩ :=
      Option.isSome_iff_exists.mp (exact.regular.suspended slot blocked)
    have waits : before.waiting slot = some (handle, call) := by
      rw [Kernel.waiting, if_pos blocked, inside]
    obtain ⟨opened, recorded⟩ := exact.waiting_open waits
    have exactHere := good handle
    rw [channels] at exactHere
    have awake : after.states slot ≠ some .blocked := by simp [states, late]
    rcases recorded with receiver | sender
    · exact awake ((exactHere opened slot).1.mp receiver).1
    · exact awake ((exactHere opened slot).2.mp sender).1

lemma Fresh.exact (fresh : Fresh kernel) : Exact kernel := by
  have waiting : ∀ id, kernel.waiting id = none := fun id => if_neg (fresh.unblocked id).1
  refine ⟨⟨fun handle => (fresh.channels handle).1, fun me on => ?_, fun id blocked => ?_⟩,
    fun me on => ?_, fun handle id => ?_, fun handle id => ?_, fun id handle call waits => ?_⟩
  · rw [fresh.idle] at on
    contradiction
  · exact absurd blocked (fresh.unblocked id).1
  · rw [fresh.idle] at on
    contradiction
  · simp [recvSlots, (fresh.channels handle).2.1, not_waitsIn (waiting id)]
  · simp [sendSlots, (fresh.channels handle).2.2, not_waitsIn (waiting id)]
  · rw [waiting id] at waits
    contradiction

/-- From a fresh kernel, the waiter slots of the open channels name exactly the processes Blocked on
them in every state of a run, if and only if no step of the run blocks onto a taken slot and no tick
of it wakes a Blocked process. -/
theorem waiters_exact_iff {kernel : Kernel n m} (fresh : Fresh kernel)
    (events : List (IpcEvent m)) :
    Throughout stepIpc WaitersExact kernel events ↔ Along stepIpc SlotsFree kernel events :=
  throughout_iff_along step_exact (fun _ exact => exact.waitersExact) slotsFree_of_exact fresh.exact

def oneProcess : Kernel 1 1 where
  sched :=
  ⟨fun _ => some (Table.newProcess defaultPriority), 0⟩
  current := none
  channels := fun _ => .new
  conts := fun _ => none
  returned := []

lemma oneProcess_fresh : Fresh oneProcess where
  channels _ := ⟨ChannelInner.new_sound, rfl, rfl⟩
  unblocked id := by
    by_cases zero : id = 0
    · subst zero
      decide
    · simp [Kernel.states, Table.stateOf, Table.get, zero]
  outside _ := rfl
  idle := rfl

/-- A receive that blocks on a free slot keeps the slots exact. -/
theorem waiters_exact_iff_receive :
    Throughout stepIpc WaitersExact oneProcess [.switch 0, .call 0 .receive] :=
  (waiters_exact_iff oneProcess_fresh [.switch 0, .call 0 .receive]).mpr (by decide)

def timeoutRun : List (IpcEvent 1) := [.switch 0, .call 0 (.receiveAt 5), .clock 5, .tick]

lemma timeoutRun_final : ((run stepIpc oneProcess timeoutRun).map fun final =>
      ((final.channels 0).closed, (final.channels 0).recvWaiter, final.states 0)) =
      some (false, some 0, some .runnable) := rfl

/-- A run of one process after which an open channel names a receiver that is not Blocked. -/
theorem stale_receiver_after_tick :
    ∃ final, run stepIpc oneProcess timeoutRun = some final ∧ ¬ WaitersExact final := by
  obtain ⟨final, reached, facts⟩ := Option.map_eq_some_iff.mp timeoutRun_final
  obtain ⟨opened, recorded, state⟩ : (final.channels 0).closed = false ∧
      (final.channels 0).recvWaiter = some 0 ∧ final.states 0 = some .runnable := by
    simpa using facts
  refine ⟨final, reached, fun exact => ?_⟩
  have blocked := ((exact 0 opened 0).1.mp recorded).1
  rw [state] at blocked
  contradiction

end R9x.Verif.KernelIpc
