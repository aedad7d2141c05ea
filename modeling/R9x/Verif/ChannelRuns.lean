import R9x.Verif.Interleave

/-!
# What holds over every interleaving on one channel

The queue is a FIFO of everything pushed, the waiter slots agree with the fill level and nothing
moves after a close, whatever the contexts do.
-/

namespace R9x.Verif.Interleave

open Lib Port.Ipc Aarch64

variable {σ : Type}

/-! ## One section -/

/-- A section's effect fits the channel it ran on. -/
structure Effect.Fits (effect : Effect σ) (inner : ChannelInner) : Prop where
  sound : effect.inner.Sound
  order : inner.queue.contents ++ effect.pushed = effect.popped ++ effect.inner.queue.contents
  silent : inner.closed = true → effect.inner.closed = true ∧ effect.pushed = [] ∧
    effect.popped = []
  calm : ∀ why, effect.pc ≠ .panicked why

variable {effect : Effect σ} {inner : ChannelInner}

lemma Effect.Fits.quiet (sound : effect.inner.Sound) (queue : effect.inner.queue = inner.queue)
    (closed : inner.closed → effect.inner.closed) (pushed : effect.pushed = [])
    (popped : effect.popped = []) (calm : ∀ why, effect.pc ≠ .panicked why) : effect.Fits inner :=
  ⟨sound, by rw [queue, pushed, popped, List.append_nil, List.nil_append],
    fun shut => ⟨closed shut, pushed, popped⟩, calm⟩

variable {msg : Message}

lemma Effect.Fits.push (sound : inner.Sound) (opened : inner.closed = false)
    (room : inner.queue.len < queueCap)
    (after : effect.inner = { inner with recvWaiter := none, queue := (inner.queue.push msg).2 })
    (pushed : effect.pushed = [msg]) (popped : effect.popped = [])
    (calm : ∀ why, effect.pc ≠ .panicked why) : effect.Fits inner := by
  obtain ⟨-, -, appended, -⟩ := BoundedQueue.push_room sound.formed room msg
  refine ⟨after ▸ sound.push opened room msg, ?_, fun shut => ?_, calm⟩
  · rw [after, pushed, popped, List.nil_append]
    exact appended.symm
  · rw [opened] at shut
    contradiction

lemma Effect.Fits.pop (sound : inner.Sound) (opened : inner.closed = false)
    (filled : 0 < inner.queue.len)
    {rest : List Message} (first : inner.queue.contents = msg :: rest)
    (after : effect.inner = { inner with queue := inner.queue.pop.2, sendWaiter := none })
    (pushed : effect.pushed = []) (popped : effect.popped = [msg])
    (calm : ∀ why, effect.pc ≠ .panicked why) : effect.Fits inner := by
  obtain ⟨head, tail, split, -, -, remaining, -⟩ := BoundedQueue.pop_message sound.formed filled
  obtain ⟨rfl, rfl⟩ := List.cons.inj (first.symm.trans split)
  refine ⟨after ▸ sound.pop opened filled, ?_, fun shut => ?_, calm⟩
  · rw [after, pushed, popped, first, List.append_nil]
    exact congrArg (msg :: ·) remaining.symm
  · rw [opened] at shut
    contradiction

variable [IpcScheduler σ]

lemma receiveEffect_fits (sound : inner.Sound) (deadline : Option UInt64) (who : ProcId)
    (sched : σ) : (receiveEffect (receiveLocked deadline who sched inner)).Fits inner := by
  have ran := receiveLocked_case sound deadline who sched
  generalize receiveLocked deadline who sched inner = result at ran
  cases ran with
  | closed shut | timeout => exact .quiet sound rfl id rfl rfl (by simp [receiveEffect])
  | message _ _ opened filled first =>
    exact .pop sound opened filled first rfl rfl rfl (by simp [receiveEffect])
  | block opened empty =>
    exact .quiet (sound.recordReceiver opened empty who) rfl id rfl rfl (by simp [receiveEffect])

lemma sectionEffect_fits (sound : inner.Sound) (call : Call) (who : ProcId) (sched : σ) :
    (sectionEffect call who sched inner).Fits inner := by
  cases call with
  | send msg =>
    have ran := sendSection_case sound (some who) msg sched
    simp only [sectionEffect]
    generalize sendSection (some who) msg sched inner = result at ran
    cases ran with
    | closed => exact .quiet sound rfl id rfl rfl (by simp [sendEffect])
    | fast _ opened _ empty =>
      exact .push sound opened (by rw [empty]; decide) rfl rfl rfl (by simp [sendEffect])
    | slow opened free room =>
      exact .push sound opened room (by rw [← free]; rfl) rfl rfl (by simp [sendEffect])
    | full me _ opened _ full =>
      exact .quiet (sound.recordSender opened full me) rfl id rfl rfl (by simp [sendEffect])
    | stray kernel => cases kernel
  | trySend msg =>
    have ran := trySendSection_case sound msg sched
    simp only [sectionEffect]
    generalize trySendSection msg sched inner = result at ran
    cases ran with
    | closed shut | full => exact .quiet sound rfl id rfl rfl (by simp [sendEffect])
    | fast _ opened _ empty =>
      exact .push sound opened (by rw [empty]; decide) rfl rfl rfl (by simp [sendEffect])
    | slow opened free room =>
      exact .push sound opened room (by rw [← free]; rfl) rfl rfl (by simp [sendEffect])
  | receive => exact receiveEffect_fits sound none who sched
  | receiveAt deadline => exact receiveEffect_fits sound (some deadline) who sched
  | tryReceive =>
    have ran := tryReceiveSection_case sound
    simp only [sectionEffect]
    generalize tryReceiveSection inner = result at ran
    cases ran with
    | closed shut | empty => exact .quiet sound rfl id rfl rfl (by simp [receiveEffect])
    | message _ _ opened filled first =>
      exact .pop sound opened filled first rfl rfl rfl (by simp [receiveEffect])
  | close => exact .quiet sound.close rfl (fun _ => rfl) rfl rfl (by simp [sectionEffect])

/-! ## The channel over every run -/

/-- The channel's invariant with its histories. -/
structure Coherent (system : System σ) : Prop where
  sound : system.inner.Sound
  fifo : system.pushed = system.popped ++ system.inner.queue.contents
  calm : ∀ id why, (system.threads id).pc ≠ .panicked why

omit [IpcScheduler σ] in
lemma goto_calm {system : System σ} (calm : ∀ id why, (system.threads id).pc ≠ .panicked why)
    (id : ProcId) {pc : Pc} (point : ∀ why, pc ≠ .panicked why) (other : ProcId) (why : Panic) :
    ((system.goto id pc).threads other).pc ≠ .panicked why := by
  by_cases same : other = id
  · subst same
    simpa [System.goto] using point why
  · simpa [System.goto, same] using calm other why

variable {system : System σ}

lemma step_coherent {next : System σ} {event : Event σ} (coherent : Coherent system)
    (taken : step system event = some next) :
    Coherent next ∧ (system.inner.closed = true → next.inner.closed = true ∧
      next.pushed = system.pushed ∧ next.popped = system.popped) := by
  obtain ⟨sound, fifo, calm⟩ := coherent
  have ran := step_case taken
  cases ran with
  | start id =>
    refine ⟨⟨sound, fifo, fun other why => ?_⟩, fun shut => ⟨shut, rfl, rfl⟩⟩
    by_cases same : other = id
    · subst same
      simp
    · simpa [same] using calm other why
  | outside => exact ⟨⟨sound, fifo, calm⟩, fun shut => ⟨shut, rfl, rfl⟩⟩
  | enter id =>
    have fits := sectionEffect_fits sound (system.threads id).call id system.sched
    refine ⟨⟨fits.sound, ?_, fun other why => ?_⟩, fun shut => ?_⟩
    · simp only [System.enter]
      rw [fifo, List.append_assoc, fits.order, ← List.append_assoc]
    · by_cases same : other = id
      · subst same
        simpa [System.enter] using fits.calm why
      · simpa [System.enter, same] using calm other why
    · obtain ⟨stays, pushed, popped⟩ := fits.silent shut
      exact ⟨stays, by simp [System.enter, pushed], by simp [System.enter, popped]⟩
  | recheck id =>
    refine ⟨⟨sound, fifo, goto_calm calm id fun why => ?_⟩, fun shut => ⟨shut, rfl, rfl⟩⟩
    split <;> simp
  | wake id | finish id | block id | awake id =>
    exact ⟨⟨sound, fifo, goto_calm calm id (by simp)⟩, fun shut => ⟨shut, rfl, rfl⟩⟩

omit [IpcScheduler σ] in
lemma initial_coherent {queue : BoundedQueue} (formed : queue.WellFormed) (sched : σ) :
    Coherent (initial queue sched) where
  sound := ⟨formed, by simp [initial], by simp [initial], by simp [initial]⟩
  fifo := rfl
  calm := by simp [initial]

variable {final : System σ} {events : List (Event σ)}

lemma run_coherent (coherent : Coherent system) (reached : run step system events = some final) :
    Coherent final :=
  run_invariant Coherent (fun _ _ _ held taken => (step_coherent held taken).1) coherent reached

lemma run_closed (coherent : Coherent system) (shut : system.inner.closed = true)
    (reached : run step system events = some final) :
    final.inner.closed = true ∧ final.pushed = system.pushed ∧ final.popped = system.popped := by
  have held := run_invariant (fun state => Coherent state ∧ state.inner.closed = true ∧
      state.pushed = system.pushed ∧ state.popped = system.popped)
    (fun state event next inv taken => by
      obtain ⟨before, closed, pushed, popped⟩ := inv
      obtain ⟨after, silent⟩ := step_coherent before taken
      obtain ⟨stays, samePushed, samePopped⟩ := silent closed
      exact ⟨after, stays, samePushed.trans pushed, samePopped.trans popped⟩)
    ⟨coherent, shut, rfl, rfl⟩ reached
  exact held.2

/-- Over every interleaving on one channel, from every well-formed initial queue: what was pushed is
what was popped followed by the queue; the queue fits and fills exactly its window of the ring; a
recorded receiver means an empty queue and a recorded sender a full one; a closed channel records
nobody and moves no message from then on; no assertion fails, and a nonempty queue always pops. -/
theorem channel_fifo_and_waiters {queue : BoundedQueue} (formed : queue.WellFormed) (sched : σ)
    (before after : List (Event σ)) (middle final : System σ)
    (reached : run step (initial queue sched) before = some middle)
    (later : run step middle after = some final) :
    middle.pushed = middle.popped ++ middle.inner.queue.contents ∧ middle.inner.queue.len ≤
      queueCap ∧
      (∀ offset, offset < queueCap →
        ((middle.inner.queue.slots.get (Ring.cell middle.inner.queue.head offset)).isSome ↔
          offset < middle.inner.queue.len)) ∧
      (middle.inner.recvWaiter.isSome → middle.inner.queue.len = 0) ∧
      (middle.inner.sendWaiter.isSome → middle.inner.queue.len = queueCap) ∧
      (middle.inner.closed = true → middle.inner.recvWaiter = none ∧ middle.inner.sendWaiter =
        none ∧
        final.inner.closed = true ∧ final.pushed = middle.pushed ∧
        final.popped = middle.popped) ∧
      (∀ id why, (middle.threads id).pc ≠ .panicked why) ∧
      (0 < middle.inner.queue.len → middle.inner.queue.pop.1.isSome) := by
  have coherent := run_coherent (initial_coherent formed sched) reached
  have sound := coherent.sound
  refine ⟨coherent.fifo, sound.formed.bounded, sound.formed.filled, fun waiting => ?_,
    fun waiting => ?_, fun shut => ?_, coherent.calm, fun filled => ?_⟩
  · obtain ⟨id, recorded⟩ := Option.isSome_iff_exists.mp waiting
    exact sound.recvEmpty id recorded
  · obtain ⟨id, recorded⟩ := Option.isSome_iff_exists.mp waiting
    exact sound.sendFull id recorded
  · obtain ⟨noReceiver, noSender⟩ := sound.closedFree shut
    exact ⟨noReceiver, noSender, run_closed coherent shut later⟩
  · obtain ⟨_, _, -, popped, -⟩ := BoundedQueue.pop_message sound.formed filled
    rw [popped]
    rfl

def twoProcesses : KernSched 2 where
  table :=
  fun _ => some (Table.newProcess defaultPriority)
  counter := 0

def request : Message := Message.new 1 0 []

/-- A bounded receive blocks on a new channel and a `send` then takes its waiter slot: both runs
exist, and between them the recorded receiver means an empty queue. -/
theorem channel_fifo_and_waiters_handoff : ∃ middle final,
      run step (initial .new twoProcesses) [.start 0 (.receiveAt 5), .advance 0] = some middle ∧
      run step middle [.start 1 (.send request), .advance 1] = some final ∧
      middle.inner.recvWaiter.isSome ∧ middle.inner.queue.len = 0 := by
  obtain ⟨middle, final, reached, later, waiting⟩ : ∃ middle final,
      run step (initial .new twoProcesses) [.start 0 (.receiveAt 5), .advance 0] = some middle ∧
      run step middle [.start 1 (.send request), .advance 1] = some final ∧
      middle.inner.recvWaiter.isSome := ⟨_, _, rfl, rfl, rfl⟩
  have holds := channel_fifo_and_waiters BoundedQueue.new_wellFormed.1 twoProcesses _ _ middle final
    reached later
  exact ⟨middle, final, reached, later, waiting, holds.2.2.2.1 waiting⟩

end R9x.Verif.Interleave
