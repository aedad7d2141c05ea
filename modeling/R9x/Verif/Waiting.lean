import R9x.Verif.KernelIpc

/-!
# What a call does to the waiting processes

One pass of a call on a sound channel, described by its verdict, the processes it wakes and the
channel it leaves, and from that the effect on who waits on what.
-/

namespace R9x.Verif.KernelIpc

open Port.Ipc Aarch64
open Function (update update_self update_of_ne)

variable {n m : Nat} {call : Call} {me next : ProcId} {inner : ChannelInner}
  {before after kernel : Kernel n m} {wakes : List ProcId} {states : ProcId → Option State}
  {handle : Fin m}
  {event : IpcEvent m} {verdict : Verdict} {now : UInt64}

/-! ## One pass of a call -/

def woken (states : ProcId → Option State) (waiters : List ProcId) : ProcId → Option State :=
  fun id => if id ∈ waiters ∧ states id = some .blocked then some .runnable else states id

def slept (states : ProcId → Option State) (me : ProcId) : ProcId → Option State :=
  fun id => if id = me ∧ states id = some .running then some .blocked else states id

def passStates (states : ProcId → Option State) (me : ProcId) (wakes : List ProcId) :
    Verdict → ProcId → Option State
  | .blocked => slept states me
  | _ => woken states wakes

def Unchanged (call : Call) (now : UInt64) (inner : ChannelInner) : Prop :=
  inner.closed = true ∨ call.nonBlocking = true ∨
    ∃ deadline, call = .receiveAt deadline ∧ deadline ≤ now ∧ inner.queue.len = 0

/-- The cases of one pass of a call: the verdict, the processes it wakes and the channel it leaves.
-/
inductive PassCase (call : Call) (me : ProcId) (now : UInt64) (inner : ChannelInner) :
    Verdict → List ProcId → ChannelInner → Prop
  | same (answer : Answer) (reason : Unchanged call now inner) :
    PassCase call me now inner (.returned answer) [] inner
  | handoff (msg : Message) (receiver : ProcId) (posts : call = .send msg ∨ call = .trySend msg)
    (opened : inner.closed = false)
    (waiting : inner.recvWaiter = some receiver) (empty : inner.queue.len = 0) :
    PassCase call me now inner (.returned (.ok none)) [receiver]
      { inner with recvWaiter := none, queue := (inner.queue.push msg).2 }
  | queued (msg : Message) (posts : call = .send msg ∨ call = .trySend msg)
    (opened : inner.closed = false) (free : inner.recvWaiter = none)
    (room : inner.queue.len < queueCap) :
    PassCase call me now inner (.returned (.ok none)) []
      { inner with queue := (inner.queue.push msg).2 }
  | full (sends : call.sends = true) (opened : inner.closed = false)
    (free : inner.recvWaiter = none) (full : inner.queue.len = queueCap) :
    PassCase call me now inner .blocked [] { inner with sendWaiter := some me }
  | popped (msg : Message) (takes : call.receives = true ∨ call = .tryReceive)
    (opened : inner.closed = false) (filled : 0 < inner.queue.len) :
    PassCase call me now inner (.returned (.ok (some msg))) inner.sendWaiter.toList
      { inner with queue := inner.queue.pop.2, sendWaiter := none }
  | empty (receives : call.receives = true) (opened : inner.closed = false)
    (empty : inner.queue.len = 0)
    (early : ∀ deadline, call = .receiveAt deadline → now < deadline) :
    PassCase call me now inner .blocked [] { inner with recvWaiter := some me }
  | close (close : call = .close) : PassCase call me now inner (.returned (.ok none))
      (inner.recvWaiter.toList ++ inner.sendWaiter.toList) (closeSection inner).2

lemma PassCase.sound {inner after : ChannelInner}
    (ran : PassCase call me now inner verdict wakes after) (sound : inner.Sound) : after.Sound := by
  cases ran with
  | same => exact sound
  | handoff msg _ _ opened _ empty =>
    exact sound.push opened (by rw [empty]; decide) msg
  | queued msg _ opened free room =>
    have pushed := sound.push opened room msg
    rw [← free] at pushed
    exact pushed
  | full _ opened _ full => exact sound.recordSender opened full me
  | popped _ _ opened filled => exact sound.pop opened filled
  | empty _ opened empty => exact sound.recordReceiver opened empty me
  | close => exact sound.close

/-- What a pass of a call comes to on the kernel's scheduler. -/
structure Passed (call : Call) (me : ProcId) (sched : KernSched n) (inner : ChannelInner)
    (progress : Progress (KernSched n)) (wakes : List ProcId) : Prop where
  ran : PassCase call me sched.counter inner progress.verdict wakes progress.inner
  states : progress.sched.table.stateOf = passStates sched.table.stateOf me wakes progress.verdict
  counter : progress.sched.counter = sched.counter

lemma woken_nil (states : ProcId → Option State) : woken states [] = states := by
  funext id
  simp [woken]

lemma states_wakeWaiter (sched : KernSched n) (waiter : Option ProcId) :
    (wakeWaiter sched waiter).table.stateOf = woken sched.table.stateOf waiter.toList := by
  funext id
  rw [stateOf_wakeWaiter]
  simp [woken]

lemma woken_append (states : ProcId → Option State) (first second : List ProcId) :
    woken (woken states first) second = woken states (first ++ second) := by
  funext id
  by_cases blocked : states id = some .blocked <;> by_cases early : id ∈ first <;>
    simp [woken, blocked, early]

lemma states_block (table : Table n) (me : ProcId) :
    (table.block me).stateOf = slept table.stateOf me :=
  funext (stateOf_block table me)

lemma Passed.same {sched : KernSched n} (answer : Answer)
    (reason : Unchanged call sched.counter inner) :
    Passed call me sched inner ⟨.returned answer, sched, inner⟩ [] :=
  ⟨.same answer reason, (woken_nil _).symm, rfl⟩

lemma handOver_states (call : Call) (me receiver : ProcId) (sched : KernSched n) :
    (handOver call me receiver sched).table.stateOf = sched.table.stateOf ∧
      (handOver call me receiver sched).counter = sched.counter := by
  cases call with
  | send => exact inheritPriority_states (some me) receiver sched
  | _ => exact ⟨rfl, rfl⟩

lemma sleepIn_states (call : Call) (me : ProcId) (sched : KernSched n) :
    (sleepIn call me sched).table.stateOf = slept sched.table.stateOf me ∧
      (sleepIn call me sched).counter = sched.counter := by
  cases call with
  | receiveAt deadline =>
    refine ⟨?_, rfl⟩
    change ((sched.table.setDeadline me deadline).block me).stateOf = _
    rw [states_block, stateOf_setDeadline]
  | _ => exact ⟨states_block sched.table me, rfl⟩

lemma pass_passed (sound : inner.Sound) (call : Call) (me : ProcId) (sched : KernSched n)
    : ∃ wakes, Passed call me sched inner (call.pass me sched inner) wakes := by
  have ran := pass_ran sound call me sched
  generalize call.pass me sched inner = progress at ran
  cases ran with
  | closed shut => exact ⟨[], .same _ (.inl shut)⟩
  | handoff msg receiver posts opened waiting empty =>
    obtain ⟨states, counter⟩ := handOver_states call me receiver sched
    have woke := states_wakeWaiter (handOver call me receiver sched) (some receiver)
    rw [states] at woke
    exact ⟨[receiver], .handoff msg receiver posts opened waiting empty, woke, counter⟩
  | queued msg posts opened free room =>
    exact ⟨[], .queued msg posts opened free room, (woken_nil _).symm, rfl⟩
  | full _ sends opened free full =>
    exact ⟨[], .full (sends ▸ rfl) opened free full, states_block sched.table me, rfl⟩
  | popped msg _ takes opened filled =>
    exact ⟨_, .popped msg takes opened filled, states_wakeWaiter sched _,
      counter_wakeWaiter sched _⟩
  | refused _ tries | nothing tries => exact ⟨[], .same _ (.inr (.inl (tries ▸ rfl)))⟩
  | timeout deadline bounded _ empty reached =>
    exact ⟨[], .same _ (.inr (.inr ⟨deadline, bounded, reached, empty⟩))⟩
  | sleeps receives opened empty early =>
    obtain ⟨states, counter⟩ := sleepIn_states call me (IpcScheduler.unboost sched me)
    have unboosted : (IpcScheduler.unboost sched me).table.stateOf = sched.table.stateOf :=
      stateOf_unboost sched.table me
    rw [unboosted] at states
    exact ⟨[], .empty receives opened empty early, states, counter⟩
  | close closes =>
    refine ⟨_, .close closes, ?_, ?_⟩
    · simp only [R9x.Port.Ipc.close, closeSection, states_wakeWaiter, woken_append]
      rfl
    · simp [R9x.Port.Ipc.close, counter_wakeWaiter]

/-! ## Who waits on what -/

/-- What a process is Blocked in: its continuation while its state is Blocked. -/
def Kernel.waiting (kernel : Kernel n m) : ProcId → Option (Fin m × Call) :=
  fun id =>
  if kernel.states id = some .blocked then kernel.conts id else none

def Kernel.recvSlots (kernel : Kernel n m) : Fin m → Option ProcId :=
  ChannelInner.recvWaiter ∘ kernel.channels

def Kernel.sendSlots (kernel : Kernel n m) : Fin m → Option ProcId :=
  ChannelInner.sendWaiter ∘ kernel.channels

/-- What every reachable state has: sound channels, a current process that is not Blocked, and a
continuation for every Blocked one. -/
structure Regular (kernel : Kernel n m) : Prop where
  sound : ∀ handle, (kernel.channels handle).Sound
  awake : ∀ me, kernel.current = some me → kernel.states me ≠ some .blocked
  suspended : ∀ id, kernel.states id = some .blocked → (kernel.conts id).isSome

lemma Regular.waiting_current (regular : Regular kernel)
    (current : kernel.current = some me) : kernel.waiting me = none :=
  if_neg (regular.awake me current)

lemma Regular.waiting_isSome (regular : Regular kernel) (id : ProcId) :
    (kernel.waiting id).isSome ↔ kernel.states id = some .blocked := by
  unfold Kernel.waiting
  by_cases blocked : kernel.states id = some .blocked
  · simp [blocked, regular.suspended id blocked]
  · simp [blocked]

lemma waiting_woken (states : after.states = woken before.states wakes)
    (conts : ∀ id, before.states id = some .blocked → after.conts id = before.conts id) :
    after.waiting = fun id => if id ∈ wakes then none else before.waiting id := by
  funext id
  simp only [Kernel.waiting, states, woken]
  by_cases blocked : before.states id = some .blocked
  · by_cases listed : id ∈ wakes
    · simp [blocked, listed]
    · simp [blocked, listed, conts id blocked]
  · simp [blocked]

/-- What a pass of a call by process `me` did to the kernel. -/
inductive Performed (before : Kernel n m) (me : ProcId) (handle : Fin m) (call : Call)
    (after : Kernel n m) : Prop
  | returned (answer : Answer) (wakes : List ProcId) (inner : ChannelInner)
    (pass : call.pass me before.sched (before.channels handle) =
      ⟨.returned answer, after.sched, inner⟩)
    (ran : PassCase call me before.sched.counter (before.channels handle) (.returned answer)
      wakes inner)
    (channels : after.channels = update before.channels handle inner)
    (states : after.states = woken before.states wakes)
    (conts : after.conts = update before.conts me none)
    (current : after.current = before.current)
    (counter : after.sched.counter = before.sched.counter)
    (log : after.returned = before.returned ++ [⟨me, handle, call, answer⟩])
  | blocked (wakes : List ProcId) (inner : ChannelInner)
    (pass : call.pass me before.sched (before.channels handle) = ⟨.blocked, after.sched, inner⟩)
    (ran : PassCase call me before.sched.counter (before.channels handle) .blocked wakes inner)
    (channels : after.channels = update before.channels handle inner)
    (states : after.states = slept before.states me)
    (conts : after.conts = update before.conts me (some (handle, call)))
    (current : after.current = none)
    (counter : after.sched.counter = before.sched.counter)
    (log : after.returned = before.returned)

lemma perform_performed (sound : (before.channels handle).Sound)
    (taken : before.perform me handle call = some after) :
    Performed before me handle call after := by
  obtain ⟨wakes, passed⟩ := pass_passed sound call me before.sched
  have own := Kernel.pass_of_perform taken
  rw [Kernel.perform, own] at taken
  generalize pass : call.pass me before.sched (before.channels handle) = progress at passed taken
  obtain ⟨verdict, _, inner⟩ := progress
  obtain ⟨ran, states, counter⟩ := passed
  cases verdict with
  | returned answer =>
    cases taken
    exact .returned answer wakes inner pass ran rfl states rfl rfl counter rfl
  | blocked =>
    cases taken
    exact .blocked wakes inner pass ran rfl states rfl rfl counter rfl
  | panicked => cases taken

lemma sound_update {channels : Channels m} (sound : ∀ handle, (channels handle).Sound)
    (handle : Fin m) (kept : inner.Sound) (other : Fin m) :
    (update channels handle inner other).Sound := by
  by_cases same : other = handle
  · subst same
    rwa [update_self]
  rw [update_of_ne same]
  exact sound other

lemma Regular.fewer (regular : Regular before) (sound : ∀ handle, (after.channels handle).Sound)
    (blocked : ∀ id, after.states id = some .blocked →
      before.states id = some .blocked ∧ after.conts id = before.conts id)
    (current : ∀ me, after.current = some me →
      before.current = some me ∨ after.states me ≠ some .blocked) : Regular after := by
  refine ⟨sound, fun me on => ?_, fun id waits => ?_⟩
  · rcases current me on with stays | active
    · exact fun waits => regular.awake me stays (blocked me waits).1
    · exact active
  · obtain ⟨waited, kept⟩ := blocked id waits
    rw [kept]
    exact regular.suspended id waited

lemma blocked_of_woken {id : ProcId} (waits : woken states wakes id = some .blocked) :
    states id = some .blocked := by
  by_contra active
  simp [woken, active] at waits

lemma Performed.regular (performed : Performed before me handle call after)
    (regular : Regular before) (running : before.current = some me) : Regular after := by
  cases performed with
  | returned _ _ _ _ ran channels states conts current =>
    refine regular.fewer ?_ (fun id waits => ?_) fun other on => .inl (current ▸ on)
    · rw [channels]
      exact sound_update regular.sound handle (ran.sound (regular.sound handle))
    · rw [states] at waits
      have waited := blocked_of_woken waits
      refine ⟨waited, ?_⟩
      rw [conts, update_of_ne]
      rintro rfl
      exact regular.awake id running waited
  | blocked wakes inner pass ran channels states conts current =>
    refine ⟨?_, fun other on => ?_, fun other waits => ?_⟩
    · rw [channels]
      exact sound_update regular.sound handle (ran.sound (regular.sound handle))
    · rw [current] at on
      contradiction
    · rw [conts]
      by_cases same : other = me
      · subst same
        simp
      rw [update_of_ne same]
      simp only [states, slept, same, false_and, ↓reduceIte] at waits
      exact regular.suspended other waits

lemma Performed.waiting_returned (awake : before.states me ≠ some .blocked)
    (states : after.states = woken before.states wakes)
    (conts : after.conts = update before.conts me none) :
    after.waiting = fun id => if id ∈ wakes then none else before.waiting id := by
  refine waiting_woken states fun id blocked => ?_
  rw [conts, update_of_ne]
  rintro rfl
  exact awake blocked

lemma Performed.waiting_blocked (awake : before.states me ≠ some .blocked)
    (states : after.states = slept before.states me)
    (conts : after.conts = update before.conts me (some (handle, call))) :
    after.waiting = update before.waiting me
      (if before.states me = some .running then some (handle, call) else none) := by
  funext id
  by_cases same : id = me
  · subst same
    simp only [Kernel.waiting, states, slept, conts, update_self, true_and]
    by_cases running : before.states id = some .running
    · simp [running]
    · simp [running, awake]
  · simp only [Kernel.waiting, states, slept, conts, update_of_ne same, same, false_and, ↓reduceIte]

/-! ## One step of the message system -/

/-- The tick is about to wake this process: it is Blocked with a deadline the counter has reached.
-/
def Kernel.expired (kernel : Kernel n m) (id : ProcId) : Bool :=
  (kernel.sched.table.get id).any (Table.expired kernel.sched.counter)

def selected (states : ProcId → Option State) (current : Option ProcId) (next : ProcId) :
    ProcId → Option State :=
  fun id =>
  if id = next then some .running
  else if current = some id ∧ states id = some .running then some .runnable
  else states id

/-- The cases of a step of the message system. -/
inductive IpcCase (before : Kernel n m) : IpcEvent m → Kernel n m → Prop
  | switch (next : ProcId) (after : Kernel n m)
    (runnable : before.states next = some .runnable)
    (states : after.states = selected before.states before.current next)
    (current : after.current = some next) (channels : after.channels = before.channels)
    (conts : after.conts = before.conts) (returned : after.returned = before.returned)
    (counter : after.sched.counter = before.sched.counter) :
    IpcCase before (.switch next) after
  | call (me : ProcId) (handle : Fin m) (call : Call) (after : Kernel n m)
    (current : before.current = some me) (outside : before.conts me = none)
    (performed : Performed before me handle call after) :
    IpcCase before (.call handle call) after
  | resume (me : ProcId) (handle : Fin m) (call : Call) (after : Kernel n m)
    (current : before.current = some me) (inside : before.conts me = some (handle, call))
    (performed : Performed before me handle call after) :
    IpcCase before .resume after
  | interrupt (handle : Fin m) (call : Call) (answer : Answer) (wakes : List ProcId)
    (inner : ChannelInner) (after : Kernel n m) (nonBlocking : call.nonBlocking = true)
    (pass : call.pass n before.sched (before.channels handle) =
      ⟨.returned answer, after.sched, inner⟩)
    (ran : PassCase call n before.sched.counter (before.channels handle) (.returned answer)
      wakes inner)
    (channels : after.channels = update before.channels handle inner)
    (states : after.states = woken before.states wakes)
    (conts : after.conts = before.conts) (current : after.current = before.current)
    (returned : after.returned = before.returned)
    (counter : after.sched.counter = before.sched.counter) :
    IpcCase before (.interrupt handle call) after
  | clock (now : UInt64) :
    IpcCase before (.clock now) { before with sched := { before.sched with counter := now } }
  | tick (after : Kernel n m)
    (states : after.states = fun id => if before.expired id then some .runnable
      else before.states id)
    (channels : after.channels = before.channels) (conts : after.conts = before.conts)
    (current : after.current = before.current) (returned : after.returned = before.returned)
    (counter : after.sched.counter = before.sched.counter) :
    IpcCase before .tick after

lemma states_switch (table : Table n) (current : Option ProcId) (next : ProcId)
    (runnable : table.stateOf next = some .runnable) :
    ((demote table current).modify next fun process =>
      { process with state := .running }).stateOf = selected table.stateOf current next := by
  have demoted : ∀ id, (demote table current).stateOf id =
      if current = some id ∧ table.stateOf id = some .running then some .runnable
      else table.stateOf id := by
    intro id
    cases current with
    | none => simp [demote]
    | some old =>
      rw [demote, Table.stateOf_modify, Table.stateOf]
      cases table.get id with
      | none => simp
      | some process =>
        by_cases same : id = old
        · by_cases active : process.state = .running <;> simp [same, active]
        · simp [same, Ne.symm same]
  have state : (demote table current).stateOf next = some .runnable := by
    rw [demoted next, runnable]
    simp
  obtain ⟨_, found, -⟩ := Option.map_eq_some_iff.mp state
  funext id
  rw [Table.stateOf_modify, selected]
  by_cases same : id = next
  · subst same
    simp [found]
  · rw [if_neg same, if_neg same, demoted id]

lemma blocked_selected {current : Option ProcId} (runnable : states next = some .runnable)
    (id : ProcId) :
    selected states current next id = some .blocked ↔ states id = some .blocked := by
  unfold selected
  by_cases same : id = next
  · subst same
    simp [runnable]
  rw [if_neg same]
  split
  · rename_i active
    simp [active.2]
  · rfl

lemma states_tick (kernel : Kernel n m) (id : ProcId) :
    (kernel.sched.table.checkDeadlines kernel.sched.counter).stateOf id =
      if kernel.expired id then some .runnable else kernel.states id := by
  unfold Kernel.states Table.stateOf Kernel.expired
  rw [Table.get_checkDeadlines]
  cases kernel.sched.table.get id with
  | none => simp
  | some process => by_cases late : Table.expired kernel.sched.counter process <;> simp [late]

lemma PassCase.nonBlocking_returns {inner after : ChannelInner}
    (ran : PassCase call me now inner verdict wakes after) (nonBlocking : call.nonBlocking = true) :
    ∃ answer, verdict = .returned answer := by
  simp only [Call.nonBlocking, Bool.and_eq_true, Bool.not_eq_true'] at nonBlocking
  cases ran with
  | full sends => exact absurd sends (by simp [nonBlocking.1])
  | empty receives => exact absurd receives (by simp [nonBlocking.2])
  | _ => exact ⟨_, rfl⟩

lemma stepIpc_case (sound : ∀ handle, (before.channels handle).Sound)
    (taken : stepIpc before event = some after) : IpcCase before event after := by
  cases event with
  | switch next =>
    simp only [stepIpc, Option.ite_none_right_eq_some, Option.some.injEq] at taken
    obtain ⟨⟨runnable, -⟩, rfl⟩ := taken
    exact .switch next _ runnable (states_switch before.sched.table before.current next runnable)
      rfl rfl rfl rfl rfl
  | call handle call =>
    simp only [stepIpc] at taken
    cases current : before.current with
    | none => simp [current] at taken
    | some me =>
      simp only [current, Option.ite_none_right_eq_some] at taken
      exact .call me handle call after current taken.1 (perform_performed (sound handle) taken.2)
  | resume =>
    simp only [stepIpc] at taken
    cases current : before.current with
    | none => simp [current] at taken
    | some me =>
      cases inside : before.conts me with
      | none => simp [current, inside] at taken
      | some pending =>
        obtain ⟨handle, call⟩ := pending
        simp only [current, inside] at taken
        exact .resume me handle call after current inside (perform_performed (sound handle) taken)
  | interrupt handle call =>
    simp only [stepIpc, Option.ite_none_right_eq_some, Option.some.injEq] at taken
    obtain ⟨nonBlocking, rfl⟩ := taken
    obtain ⟨wakes, ran, states, counter⟩ := pass_passed (sound handle) call n before.sched
    obtain ⟨answer, returns⟩ := ran.nonBlocking_returns nonBlocking
    rw [returns] at ran states
    exact .interrupt handle call answer wakes _ _ nonBlocking (by rw [← returns]; rfl)
      ran rfl states
      rfl rfl rfl counter
  | clock now =>
    cases taken
    exact .clock now
  | tick =>
    cases taken
    exact .tick _ (funext (states_tick before)) rfl rfl rfl rfl rfl

lemma IpcCase.regular (ran : IpcCase before event after) (regular : Regular before) :
    Regular after := by
  cases ran with
  | switch _ _ runnable states current channels conts =>
    refine regular.fewer (channels ▸ regular.sound)
      (fun id waits => ⟨(blocked_selected runnable id).mp (states ▸ waits), congrFun conts id⟩)
      fun me on => .inr ?_
    rw [current] at on
    cases on
    simp [states, selected]
  | call _ _ _ after current _ performed | resume _ _ _ after current _ performed =>
    exact performed.regular regular current
  | interrupt handle _ _ _ _ _ _ _ ran channels states conts current =>
    refine regular.fewer ?_ (fun id waits => ⟨?_, congrFun conts id⟩) fun me on =>
      .inl (current ▸ on)
    · rw [channels]
      exact sound_update regular.sound handle (ran.sound (regular.sound handle))
    · rw [states] at waits
      exact blocked_of_woken waits
  | clock => exact ⟨regular.sound, regular.awake, regular.suspended⟩
  | tick after states channels conts current =>
    refine regular.fewer (channels ▸ regular.sound) (fun id waits => ⟨?_, congrFun conts id⟩)
      fun me on => .inl (current ▸ on)
    simp only [states] at waits
    split at waits
    · contradiction
    · exact waits

lemma waiting_tick
    (states : after.states = fun id => if before.expired id then some .runnable
      else before.states id) (conts : after.conts = before.conts) :
    after.waiting = fun id => if before.expired id then none else before.waiting id := by
  funext id
  simp only [Kernel.waiting, states, conts]
  by_cases late : before.expired id <;> simp [late]

lemma waiting_switch (runnable : before.states next = some .runnable)
    (states : after.states = selected before.states before.current next)
    (conts : after.conts = before.conts) : after.waiting = before.waiting := by
  funext id
  simp only [Kernel.waiting, conts, states, blocked_selected runnable id]

end R9x.Verif.KernelIpc
