import R9x.Verif.Deadlines
import R9x.Verif.NoLostWake

/-!
# The end of a channel

`close` sets a flag that nothing clears.
-/

namespace R9x.Verif.KernelIpc

open Lib Port.Ipc Aarch64
open Function (update_self update_of_ne)

variable {n m : Nat} {inner : ChannelInner} {call : Call} {handle : Fin m}
  {before after kernel : Kernel n m} {event : Event n m} {id : ProcId}

/-! ## A closed channel -/

lemma closed_refuses {σ : Type} [IpcScheduler σ] (closed : inner.closed = true)
    (other : call ≠ .close) (me : ProcId) (sched : σ) :
    call.pass me sched inner = ⟨.returned (.error .closed), sched, inner⟩ := by
  cases call with
  | send => simp [Call.pass, send, sendSection, closed]
  | trySend => simp [Call.pass, trySend, trySendSection, closed]
  | receive => simp [Call.pass, receive, receiveSection, receiveLocked, closed, finishReceive]
  | receiveAt =>
    simp [Call.pass, receiveAt, receiveAtSection, receiveLocked, closed, finishReceive]
  | tryReceive => simp [Call.pass, tryReceive, tryReceiveSection, closed, finishReceive]
  | close => exact absurd rfl other

lemma closed_close (sound : inner.Sound) (closed : inner.closed = true) :
    closeSection inner = ((none, none), inner) := by
  obtain ⟨noReceiver, noSender⟩ := sound.closedFree closed
  obtain ⟨_, _, _, _⟩ := inner
  subst noReceiver noSender closed
  rfl

lemma closed_isBlockedOn (sound : inner.Sound) (closed : inner.closed = true) (id : ProcId)
    : inner.isBlockedOn id = false := by
  obtain ⟨noReceiver, noSender⟩ := sound.closedFree closed
  simp [ChannelInner.isBlockedOn, noReceiver, noSender]

/-- What a closed channel answers. A receive by a caller whose slot has been reaped does not come to
look at the channel. -/
structure Final (kernel : Kernel n m) (handle : Fin m) : Prop where
  refuses : ∀ (me : ProcId) (call : Call), call ≠ .close →
    (call.receives = true → kernel.states me ≠ none) → kernel.pass me handle call =
      ⟨.returned (.error .closed), kernel.sched, kernel.channels handle⟩
  panics : ∀ (me : ProcId) (call : Call), call.receives = true → kernel.states me = none →
    (kernel.pass me handle call).verdict = .panicked .receiveNeedsProcess
  idempotent : ∀ me : ProcId, kernel.pass me handle .close =
    ⟨.returned (.ok none), kernel.sched, kernel.channels handle⟩

/-- What a pass returns without blocking does not depend on the caller's slot, unless it receives.
-/
lemma Kernel.pass_returned {answer : Answer} {sched : KernSched n} {me : ProcId}
    (returns : call.pass me kernel.sched (kernel.channels handle) =
      ⟨.returned answer, sched, inner⟩)
    (present : call.receives = true → kernel.states me ≠ none) :
    kernel.pass me handle call = ⟨.returned answer, sched, inner⟩ := by
  rw [Kernel.pass, returns]
  split
  · rfl
  rename_i reaped
  rw [if_neg fun receives => reaped (present receives)]

lemma Regular.final (regular : Regular kernel)
    (closed : (kernel.channels handle).closed = true) : Final kernel handle where
  refuses me call other present :=
    Kernel.pass_returned (closed_refuses closed other me kernel.sched) present
  panics me call receives reaped := by
    rw [Kernel.pass, if_neg (by simp [reaped]), if_pos receives]
  idempotent me := by
    refine Kernel.pass_returned ?_ (by simp [Call.receives])
    simp only [Call.pass, R9x.Port.Ipc.close, closed_close (regular.sound handle) closed]
    rfl

/-! ## What an event closes -/

/-- The channels an event closes: the one `close` is called on, or those that record the process
that dies. -/
def Kernel.closes (kernel : Kernel n m) (event : Event n m) (handle : Fin m) : Bool :=
  match event with
  | .ipc (.call channel .close) => channel = handle
  | .ipc (.interrupt channel .close) => channel = handle
  | event => (victim kernel event).any fun id => (kernel.channels handle).isBlockedOn id

/-- What an event does to the channels: a pass of a call writes one, and a death closes those that
record the process. -/
inductive ChannelCase (before : Kernel n m) (event : Event n m) (after : Kernel n m) : Prop
  | passed (me : ProcId) (handle : Fin m) (call : Call)
    (closes : ∀ other, before.closes event other =
      (decide (call = .close) && decide (handle = other)))
    (sched : after.sched = (call.pass me before.sched (before.channels handle)).sched)
    (channels : after.channels = Function.update before.channels handle
      (call.pass me before.sched (before.channels handle)).inner)
  | died (id : ProcId) (dead : victim before event = some id) (died : Died before id after)
    (closes : ∀ other, before.closes event other = (before.channels other).isBlockedOn id)
  | same (closes : ∀ other, before.closes event other = false)
    (channels : after.channels = before.channels)

variable {me : ProcId}

lemma perform_progress (taken : before.perform me handle call = some after) :
    after.sched = (call.pass me before.sched (before.channels handle)).sched ∧
      after.channels = Function.update before.channels handle
        (call.pass me before.sched (before.channels handle)).inner := by
  have own := Kernel.pass_of_perform taken
  rw [Kernel.perform, own] at taken
  generalize call.pass me before.sched (before.channels handle) = progress at taken ⊢
  obtain ⟨verdict, _, _⟩ := progress
  cases verdict with
  | returned | blocked =>
    cases taken
    exact ⟨rfl, rfl⟩
  | panicked => cases taken

lemma pass_open (sound : inner.Sound) (call : Call) (me : ProcId) (sched : KernSched n)
    (opened : inner.closed = false) :
    (call.pass me sched inner).inner.closed = decide (call = .close) ∧
      (call.pass me sched inner).verdict ≠ .returned (.error .closed) := by
  have ran := pass_ran sound call me sched
  generalize call.pass me sched inner = progress at ran
  cases ran with
  | closed shut => cases opened.symm.trans shut
  | handoff msg receiver posts | queued msg posts =>
    rcases posts with rfl | rfl <;> exact ⟨opened, by simp⟩
  | refused msg same | full msg same | nothing same | timeout deadline same =>
    subst same
    exact ⟨opened, by simp⟩
  | popped _ _ takes =>
    have other : call ≠ .close := by
      rintro rfl
      simp [Call.receives] at takes
    exact ⟨by simpa [other] using opened, by simp⟩
  | sleeps receives =>
    have other : call ≠ .close := by
      rintro rfl
      cases receives
    exact ⟨by simpa [other] using opened, by simp⟩
  | close closes => exact ⟨by simp [closes, closeSection], by simp⟩

/-! ## The one Running process -/

def Lone (kernel : Kernel n m) : Prop :=
  ∀ id, kernel.states id = some .running →
    kernel.current = some id

lemma Died.running {dead : ProcId} (died : Died before dead after)
    (running : after.states id = some .running) : before.states id = some .running ∧ id ≠ dead := by
  rw [died.states, diedStates] at running
  by_cases same : id = dead
  · subst same
    simp at running
  rw [if_neg same] at running
  split at running
  · contradiction
  · exact ⟨running, same⟩

lemma running_woken {states : ProcId → Option State} {wakes : List ProcId}
    (running : woken states wakes id = some .running) : states id = some .running := by
  unfold woken at running
  split at running
  · contradiction
  · exact running

/-- Every event keeps the Running process alone. -/
lemma StepCase.lone {event : Event n m} (ran : StepCase before event after) (lone : Lone before) :
    Lone after := by
  intro id running
  cases ran with
  | ipc event after ran =>
    have passed : ∀ {me other call}, before.current = some me →
        Performed before me other call after → after.current = some id := by
      intro me other call on performed
      cases performed with
      | returned _ _ _ _ _ _ states _ current =>
        rw [states] at running
        rw [current]
        exact lone id (running_woken running)
      | blocked wakes inner pass ran channels states =>
        rw [states, slept] at running
        split at running
        · contradiction
        rename_i awake
        have here := lone id running
        rw [on] at here
        exact absurd ⟨(Option.some.inj here).symm, running⟩ awake
    cases ran with
    | switch next after runnable states current =>
      rw [states, selected] at running
      rw [current]
      split at running
      · rename_i same
        rw [same]
      split at running
      · contradiction
      rename_i demoted
      exact absurd ⟨lone id running, running⟩ demoted
    | call me other call after current _ performed
    | resume me other call after current _ performed =>
      exact passed current performed
    | interrupt _ _ _ _ _ _ _ _ _ _ states _ current =>
      rw [states] at running
      rw [current]
      exact lone id (running_woken running)
    | clock => exact lone id running
    | tick after states channels conts current =>
      simp only [states] at running
      rw [current]
      split at running
      · contradiction
      · exact lone id running
  | exit _ _ dead _ _ _ wasRunning died =>
    obtain ⟨old, different⟩ := died.running running
    have here := (lone id old).symm.trans (lone dead wasRunning)
    exact absurd (Option.some.inj here) different
  | fault _ _ on _ _ died =>
    obtain ⟨old, different⟩ := died.running running
    exact absurd (Option.some.inj ((lone id old).symm.trans on)) different
  | kill _ _ _ _ _ died current =>
    rw [current]
    exact lone id (died.running running).1
  | missed => exact lone id running
  | spawn slot prio after free states conts channels current
  | wait slot after exited states conts channels current =>
    rw [states] at running
    rw [current]
    by_cases same : id = slot.val
    · rw [same, update_self] at running
      contradiction
    rw [update_of_ne same] at running
    exact lone id running
  | setprio _ _ _ states _ _ current =>
    rw [states] at running
    rw [current]
    exact lone id running

/-- Waiters and queues fit, and only calls that may block are pending. -/
structure OrderlyWaits (kernel : Kernel n m) : Prop where
  regular : Regular kernel
  pending : ∀ id handle call, kernel.conts id = some (handle, call) → call.nonBlocking = false

lemma PassCase.blocked_blocks {now : UInt64} {inner after : ChannelInner} {wakes : List ProcId}
    (ran : PassCase call me now inner .blocked wakes after) : call.nonBlocking = false := by
  cases ran with
  | full sends => simp [Call.nonBlocking, sends]
  | empty receives => simp [Call.nonBlocking, receives]

lemma step_steady (before : Kernel n m) (event : Event n m) (after : Kernel n m)
    (steady : OrderlyWaits before) (taken : step before event = some after) :
    OrderlyWaits after := by
  refine ⟨(step_case steady.regular.sound taken).regular steady.regular, ?_⟩
  intro id handle call inside
  have shift := step_shift steady.regular taken id
  rw [inside] at shift
  generalize after.wait id = wait at shift
  generalize pending : some (handle, call) = conts at shift
  cases shift with
  | returned | born => cases pending
  | slept _ _ _ _ ran =>
    cases pending
    exact ran.blocked_blocks
  | _ => exact steady.pending id handle call pending.symm

/-- Whatever happens, kills and exits in the middle of a call among it: a receiver is recorded only
on an empty open channel and a sender only on a full one, a Blocked process is inside a call that
may block, and no process but the one on the core is Running. -/
theorem kernel_steady {start : Kernel n m} (fresh : Fresh start) (events : List (Event n m)) :
    Throughout step (fun kernel => OrderlyWaits kernel ∧ Lone kernel) start events := by
  have first : OrderlyWaits start := by
    refine ⟨fresh.exact.regular, fun id handle call inside => ?_⟩
    rw [fresh.outside id] at inside
    contradiction
  refine throughout_of_invariant (fun before event after held taken => ?_) (fun _ held => held)
    ⟨first, fun id running => absurd running (fresh.unblocked id).2⟩ events
  exact ⟨step_steady before event after held.1 taken, (step_case held.1.regular.sound taken).lone
    held.2⟩

/-- A server that waits. -/
theorem kernel_steady_server :
    Throughout step (fun kernel => OrderlyWaits kernel ∧ Lone kernel) noProcesses serverWaits :=
  kernel_steady noProcesses_fresh _

/-- Every event does one of these to the channels. -/
lemma step_channels (steady : OrderlyWaits before) (taken : step before event = some after)
    : ChannelCase before event after := by
  have died : ∀ id, victim before event = some id → Died before id after →
      ChannelCase before event after := by
    intro id dead did
    refine .died id dead did fun other => ?_
    cases event with
    | ipc => cases dead
    | _ => simp [Kernel.closes, dead]
  have same : victim before event = none → after.channels = before.channels →
      (∀ channel call, event ≠ .ipc (.call channel call) ∧
        event ≠ .ipc (.interrupt channel call)) → ChannelCase before event after := by
    intro alive channels other
    refine .same (fun handle => ?_) channels
    unfold Kernel.closes
    split
    · exact absurd rfl (other _ _).1
    · exact absurd rfl (other _ _).2
    · simp [alive]
  have ran := step_case steady.regular.sound taken
  cases ran with
  | ipc _ after ran =>
    cases ran with
    | switch next after runnable states current channels | tick after states channels =>
      exact same rfl channels (by simp)
    | call me handle call _ current outside =>
      simp only [step, stepIpc, current, outside, ↓reduceIte] at taken
      obtain ⟨sched, channels⟩ := perform_progress taken
      refine .passed me handle call (fun other => ?_) sched channels
      cases call <;> simp [Kernel.closes, victim]
    | resume me handle call _ current inside =>
      simp only [step, stepIpc, current, inside] at taken
      obtain ⟨sched, channels⟩ := perform_progress taken
      refine .passed me handle call (fun other => ?_) sched channels
      have blocks := steady.pending me handle call inside
      have other : call ≠ .close := by
        rintro rfl
        cases blocks
      simp [Kernel.closes, victim, other]
    | interrupt handle call _ _ _ _ nonBlocking =>
      simp only [step, stepIpc, nonBlocking, ↓reduceIte, Option.some.injEq] at taken
      subst taken
      refine .passed n handle call (fun other => ?_) rfl rfl
      cases call <;> simp [Kernel.closes, victim]
    | clock => exact same rfl rfl (by simp)
  | exit _ _ id _ _ _ _ did dead => exact died id dead did
  | fault me _ on _ _ did => exact died me on did
  | kill pid _ _ alive live did =>
    refine died pid.toNat ?_ did
    rcases Table.sysKillMark_cases before.sched.table pid with ⟨_, _, killed, -⟩ | ⟨-, gone⟩
    · simp [victim, killed]
    rcases gone with gone | gone
    · cases gone.symm.trans alive
    · exact absurd (Option.some.inj (alive.symm.trans gone)) live
  | missed pid gone =>
    refine same ?_ rfl (by simp)
    rcases Table.sysKillMark_cases before.sched.table pid with ⟨_, _, -, alive, live⟩ | ⟨none, -⟩
    · rcases gone with gone | gone
      · cases gone.symm.trans alive
      · exact absurd (Option.some.inj (alive.symm.trans gone)) live
    · simp [victim, none]
  | spawn slot prio after free states conts channels
  | wait slot after exited states conts channels | setprio id prio after states conts channels =>
    exact same rfl channels (by simp)

lemma step_closed (steady : OrderlyWaits before) (taken : step before event = some after)
    (handle : Fin m) :
    if (before.channels handle).closed then after.channels handle = before.channels handle
    else (after.channels handle).closed = before.closes event handle ∧
      (before.closes event handle = true →
        (after.channels handle).queue = (before.channels handle).queue) := by
  have sound := steady.regular.sound handle
  split
  · rename_i closed
    cases step_channels steady taken with
    | passed _ _ call _ _ channels =>
      rw [channels, Function.update_apply]
      split
      · rename_i same
        subst same
        by_cases close : call = .close
        · subst close
          simp only [Call.pass, R9x.Port.Ipc.close, closed_close sound closed]
        · rw [closed_refuses closed close]
      · rfl
    | died _ _ died =>
      rw [died.channels, closed_isBlockedOn sound closed]
      rfl
    | same _ channels => rw [channels]
  rename_i opened
  rw [Bool.not_eq_true] at opened
  cases step_channels steady taken with
  | passed me channel call closes sched channels =>
    rw [channels, closes]
    by_cases same : handle = channel
    · subst same
      simp only [Function.update_self, pass_open sound call me before.sched opened, decide_true,
        Bool.and_true, decide_eq_true_eq, true_and]
      rintro rfl
      rfl
    · simp [Function.update_of_ne same, opened, Ne.symm same]
  | died _ _ died closes =>
    rw [died.channels, closes]
    split
    · rename_i recorded
      exact ⟨recorded.symm, fun _ => rfl⟩
    rename_i unrecorded
    simp [opened, unrecorded]
  | same closes channels => simp [channels, closes, opened]

lemma run_closed {final : Kernel n m} {events : List (Event n m)} (steady : OrderlyWaits kernel)
    (closed : (kernel.channels handle).closed = true)
    (reached : run step kernel events = some final) :
    OrderlyWaits final ∧ final.channels handle = kernel.channels handle := by
  apply run_invariant (fun state => OrderlyWaits state ∧ state.channels handle =
    kernel.channels handle)
    _ ⟨steady, rfl⟩ reached
  intro state event next held taken
  have kept := step_closed held.1 taken handle
  rw [held.2, if_pos closed] at kept
  exact ⟨step_steady state event next held.1 taken, kept⟩

/-- An event that neither runs a pass of a process nor gives its slot away. -/
def Kernel.spares (kernel : Kernel n m) (id : ProcId) (event : Event n m) : Prop :=
  (∀ handle call, kernel.passing event ≠ some (id, handle, call)) ∧
    ∀ slot prio, event = .spawn slot prio → slot.val ≠ id

lemma conts_spared (regular : Regular before) (spared : before.spares id event)
    (taken : step before event = some after) : after.conts id = before.conts id := by
  have shift := step_shift regular taken id
  generalize after.wait id = wait at shift
  generalize after.conts id = pending at shift ⊢
  cases shift with
  | returned handle call passing | slept handle call inner passing =>
    exact absurd passing (spared.1 handle call)
  | born slot prio spawned claimed => exact absurd claimed (spared.2 slot prio spawned)
  | _ => rfl

lemma blocked_spared (regular : Regular before) (blocked : before.states id = some .blocked)
    (taken : step before event = some after) : before.spares id event := by
  constructor
  · intro _ _ passing
    exact regular.awake id (passing_current passing) blocked
  · rintro slot _ rfl rfl
    simp only [step, Option.ite_none_right_eq_some, Option.some.injEq] at taken
    have free := not_blocked_of_free ((Table.isFree_iff before.sched.table slot).mp taken.1)
    exact free blocked

/-! ## The processes that a close wakes -/

/-- The processes that an event finds Blocked and recorded on a channel it closes; a process that
dies in the event is Exited by then. -/
def Kernel.releases (kernel : Kernel n m) (event : Event n m) (id : ProcId) : Prop :=
  kernel.states id = some .blocked ∧ victim kernel event ≠ some id ∧
    ∃ handle, kernel.closes event handle = true ∧ (kernel.channels handle).isBlockedOn id = true

/-- A process is Runnable after an event, and when it next runs, its pending call returns
`Err(Closed)`; the queues stay as they are. -/
structure Released (before after : Kernel n m) (id : ProcId) : Prop where
  runnable : after.states id = some .runnable
  fails : ∀ later middle, Along step (Kernel.spares · id ·) after later →
    run step after later = some middle → ∀ event handle call final,
    middle.passing event = some (id, handle, call) → step middle event = some final →
    before.conts id = some (handle, call) ∧
      final.returned = middle.returned ++ [⟨id, handle, call, .error .closed⟩] ∧
      final.channels = middle.channels

lemma releases_runnable (steady : OrderlyWaits before) (taken : step before event = some after)
    (releases : before.releases event id) : after.states id = some .runnable := by
  obtain ⟨blocked, alive, handle, closing, recorded⟩ := releases
  cases step_channels steady taken with
  | passed _ channel _ closes sched =>
    rw [closes, Bool.and_eq_true, decide_eq_true_eq, decide_eq_true_eq] at closing
    obtain ⟨rfl, rfl⟩ := closing
    rw [Kernel.states, sched]
    refine (stateOf_close before.sched (before.channels channel) id).trans ?_
    rw [if_pos ⟨recorded, blocked⟩]
  | died dying dead died closes =>
    have other : id ≠ dying := fun same => alive (same ▸ dead)
    have shared : SharesChannel before dying id := ⟨handle, closes handle ▸ closing, recorded⟩
    rw [died.states, diedStates, if_neg other, if_pos ⟨shared, blocked⟩]
  | same closes =>
    rw [closes] at closing
    contradiction

variable {channel handle : Fin m} {pending call : Call}

lemma passing_pending {final : Kernel n m} (inside : kernel.conts id = some (channel, pending))
    (passing : kernel.passing event = some (id, handle, call))
    (taken : step kernel event = some final) :
    (channel, pending) = (handle, call) ∧ kernel.perform id handle call = some final := by
  have current := passing_current passing
  unfold Kernel.passing at passing
  split at passing
  · simp [step, stepIpc, current, inside] at taken
  · simp only [current, Option.bind_some, inside, Option.map_some, Option.some.injEq,
      Prod.mk.injEq, true_and] at passing
    obtain ⟨rfl, rfl⟩ := passing
    simp only [step, stepIpc, current, inside] at taken
    exact ⟨rfl, taken⟩
  · cases passing

lemma pending_fails {after middle final : Kernel n m} {later : List (Event n m)}
    (steady : OrderlyWaits after) (inside : after.conts id = some (channel, pending))
    (closed : (after.channels channel).closed = true)
    (spared : Along step (Kernel.spares · id ·) after later)
    (reached : run step after later = some middle)
    (passing : middle.passing event = some (id, handle, call))
    (taken : step middle event = some final) :
    (channel, pending) = (handle, call) ∧
      final.returned = middle.returned ++ [⟨id, handle, call, .error .closed⟩] ∧
      final.channels = middle.channels := by
  have kept : OrderlyWaits middle ∧ middle.conts id = some (channel, pending) := by
    have keeps : ∀ (state : Kernel n m) label next,
        (OrderlyWaits state ∧ state.conts id = some (channel, pending)) → state.spares id label →
        step state label = some next →
        OrderlyWaits next ∧ next.conts id = some (channel, pending) := by
      intro state label next held met taken
      exact ⟨step_steady state label next held.1 taken,
        (conts_spared held.1.regular met taken).trans held.2⟩
    exact run_invariant_along keeps ⟨steady, inside⟩ spared reached
  obtain ⟨same, performed⟩ := passing_pending kept.2 passing taken
  cases same
  have shut := congrArg ChannelInner.closed (run_closed steady closed reached).2
  have blocks := kept.1.pending id channel pending kept.2
  have other : pending ≠ .close := by
    rintro rfl
    cases blocks
  have own := Kernel.pass_of_perform performed
  rw [Kernel.perform, own, closed_refuses (shut.trans closed) other] at performed
  cases performed
  exact ⟨rfl, rfl, Function.update_eq_self channel middle.channels⟩

lemma pending_runs (regular : Regular after) (runnable : after.states id = some .runnable)
    (inside : after.conts id = some (channel, pending))
    (opened : (after.channels channel).closed = false) (off : after.current ≠ some id) :
    ∃ middle final, step after (.ipc (.switch id)) = some middle ∧
      middle.passing (.ipc .resume) = some (id, channel, pending) ∧
      step middle (.ipc .resume) = some final ∧
      final.returned ≠ middle.returned ++ [⟨id, channel, pending, .error .closed⟩] := by
  have switched : ∃ middle, step after (.ipc (.switch id)) = some middle ∧
      middle.current = some id ∧ middle.conts = after.conts ∧ middle.channels = after.channels :=
    ⟨_, if_pos ⟨runnable, off⟩, rfl, rfl, rfl⟩
  obtain ⟨middle, switches, current, conts, channels⟩ := switched
  have present : middle.states id ≠ none := by
    cases step_case regular.sound switches with
    | ipc _ _ ran =>
      cases ran with
      | switch next after runnable states => simp [states, selected]
  have sound : (middle.channels channel).Sound := channels ▸ regular.sound channel
  have accepts := (pass_open sound pending id middle.sched (channels ▸ opened)).2
  have resumes : step middle (.ipc .resume) = middle.perform id channel pending := by
    simp only [step, stepIpc, current, conts, inside]
  have passing : middle.passing (.ipc .resume) = some (id, channel, pending) := by
    simp [Kernel.passing, current, conts, inside]
  have ran := pass_ran sound pending id middle.sched
  rw [Kernel.perform, Kernel.pass_present present] at resumes
  generalize pending.pass id middle.sched (middle.channels channel) =
    progress at accepts resumes ran
  obtain ⟨verdict, _, _⟩ := progress
  cases verdict with
  | returned =>
    refine ⟨middle, _, switches, passing, resumes, ?_⟩
    simpa using accepts
  | blocked =>
    refine ⟨middle, _, switches, passing, resumes, ?_⟩
    simp
  | panicked => cases ran

lemma released_iff (steady : OrderlyWaits before) (taken : step before event = some after)
    (releases : before.releases event id) :
    Released before after id ↔ ∃ channel call, before.conts id = some (channel, call) ∧
      ((before.channels channel).closed = true ∨ before.closes event channel = true) := by
  have runnable := releases_runnable steady taken releases
  have next := step_steady before event after steady taken
  have spared := blocked_spared steady.regular releases.1 taken
  have kept := conts_spared steady.regular spared taken
  obtain ⟨⟨channel, call⟩, inside⟩ :=
    Option.isSome_iff_exists.mp (steady.regular.suspended id releases.1)
  have closed : (after.channels channel).closed = true ↔
      ((before.channels channel).closed = true ∨ before.closes event channel = true) := by
    have turned := step_closed steady taken channel
    split at turned
    · rename_i shut
      simp [turned, shut]
    rename_i opened
    simp [turned.1, opened]
  constructor
  · intro released
    refine ⟨channel, call, inside, closed.mp ?_⟩
    by_contra opened
    have off : after.current ≠ some id := by
      intro on
      have ran := step_case steady.regular.sound taken
      rcases ran.current on with on | awake
      · exact steady.regular.awake id on releases.1
      rw [releases.1] at awake
      contradiction
    obtain ⟨middle, final, switches, passing, resumes, answer⟩ :=
      pending_runs next.regular runnable (kept.trans inside) (Bool.not_eq_true _ ▸ opened) off
    have alone : Along step (Kernel.spares · id ·) after [.ipc (.switch id)] := by
      intro _ _
      refine ⟨⟨fun _ _ wrong => ?_, fun _ _ wrong => ?_⟩, trivial⟩ <;> cases wrong
    have reached : run step after [.ipc (.switch id)] = some middle := by
      simp [run, switches]
    exact answer (released.fails _ middle alone reached _ channel call final passing resumes).2.1
  · rintro ⟨_, _, same, shut⟩
    obtain ⟨rfl, rfl⟩ := Prod.mk.inj (Option.some.inj (inside.symm.trans same))
    refine ⟨runnable, fun later middle spared reached event handle call final passing taken => ?_⟩
    obtain ⟨same, failed⟩ :=
      pending_fails next (kept.trans inside) (closed.mpr shut) spared reached passing taken
    exact ⟨same ▸ inside, failed⟩

/-- In every reachable state a closed channel answers `Err(Closed)` from then on and keeps its
queue. The processes that a close wakes get `Err(Closed)` when they next run exactly if each of them
is in a call on a channel that is closed or closed by the same event. -/
theorem closing_final {start : Kernel n m} (fresh : Fresh start) (events : List (Event n m))
    {kernel : Kernel n m} (reached : run step start events = some kernel) :
    (∀ handle, (kernel.channels handle).closed = true → ∀ later final, run step kernel later =
      some final →
      final.channels handle = kernel.channels handle ∧ Final final handle) ∧
    ∀ event after, step kernel event = some after →
      (∀ handle, kernel.closes event handle = true → (after.channels handle).closed = true ∧
        (after.channels handle).queue = (kernel.channels handle).queue) ∧
      ((∀ id, kernel.releases event id → Released kernel after id) ↔
        ∀ id, kernel.releases event id → ∃ channel call, kernel.conts id = some (channel, call) ∧
          ((kernel.channels channel).closed = true ∨ kernel.closes event channel = true)) := by
  have steady : OrderlyWaits kernel := by
    apply run_invariant OrderlyWaits step_steady ⟨fresh.exact.regular, fun id handle call inside =>
      ?_⟩
      reached
    rw [fresh.outside id] at inside
    contradiction
  refine ⟨fun handle closed later final runs => ?_, fun event after taken => ⟨?_, ?_⟩⟩
  · obtain ⟨settled, kept⟩ := run_closed steady closed runs
    exact ⟨kept, settled.regular.final (congrArg ChannelInner.closed kept ▸ closed)⟩
  · intro handle closing
    have turned := step_closed steady taken handle
    split at turned
    · rename_i closed
      rw [turned]
      exact ⟨closed, rfl⟩
    · exact ⟨turned.1.trans closing, turned.2 closing⟩
  · exact forall₂_congr fun id releases => released_iff steady taken releases

def receiverWaits : List (Event 2 1) := [.spawn 0 128, .ipc (.switch 0), .ipc (.call 0 .receive)]

/-- A close from kernel context releases it. -/
theorem closing_final_receiver : ∃ kernel after, run step noProcesses receiverWaits = some kernel ∧
      step kernel (.ipc (.interrupt 0 .close)) = some after ∧
      kernel.releases (.ipc (.interrupt 0 .close)) 0 ∧ Released kernel after 0 := by
  refine ⟨_, _, rfl, rfl, ⟨rfl, by simp [victim], 0, rfl, rfl⟩, ?_⟩
  refine ((closing_final noProcesses_fresh receiverWaits rfl).2 (.ipc (.interrupt 0 .close)) _
    rfl).2.mpr ?_ 0 ⟨rfl, by simp [victim], 0, rfl, rfl⟩
  rintro id ⟨_, -, handle, -, recorded⟩
  obtain rfl : handle = 0 := Subsingleton.elim _ _
  change ((some 0 == some id) || (none == some id)) = true at recorded
  obtain rfl : 0 = id := by simpa using recorded
  exact ⟨0, .receive, rfl, .inr rfl⟩

def twoChannels : Kernel 1 2 where
  sched :=
  ⟨fun _ => none, 0⟩
  current := none
  channels := fun _ => .new
  conts := fun _ => none
  returned := []

def waitsElsewhere : List (Event 1 2) :=
  [.spawn 0 1, .ipc (.switch 0), .ipc (.call 0 (.receiveAt 5)), .ipc (.clock 5), .ipc .tick,
    .ipc (.switch 0), .ipc .resume, .ipc (.call 1 .receive)]

/-- The first channel still records it: a close there makes it Runnable, and its call on the second
channel does not return. -/
theorem close_wakes_another_call : ∃ kernel after final, run step twoChannels waitsElsewhere =
    some kernel ∧
      kernel.releases (.ipc (.interrupt 0 .close)) 0 ∧
      step kernel (.ipc (.interrupt 0 .close)) = some after ∧
      run step after [.ipc (.switch 0), .ipc .resume] = some final ∧
      final.states 0 = some .blocked ∧ final.returned = after.returned ∧
      ¬ Released kernel after 0 := by
  refine ⟨_, _, _, rfl, ⟨rfl, by simp [victim], 0, rfl, rfl⟩, rfl, rfl, rfl, rfl, fun released =>
    ?_⟩
  have failed := released.fails [.ipc (.switch 0)] _ ?_ rfl (.ipc .resume) 1 .receive _ rfl rfl
  · cases failed.2.1
  · intro _ _
    refine ⟨⟨fun _ _ wrong => ?_, fun _ _ wrong => ?_⟩, trivial⟩ <;> cases wrong

end R9x.Verif.KernelIpc
