import R9x.Verif.ChannelRuns

/-!
# What a bounded receive answers

`receive_at` decides under the channel lock: a closed channel, a queued message, a deadline that the
counter has reached, or a wait.
-/

namespace R9x.Verif.Interleave

open Lib Port.Ipc Aarch64
open Function (update update_self update_of_ne)
open IpcScheduler (now)

variable {σ : Type}

/-! ## What the sections saw -/

/-- What a section sees when it has taken the lock. -/
structure Sight where
  closed : Bool
  queued : List Message
  now : UInt64
  deriving DecidableEq

/-- A system with what its contexts saw. -/
structure Seen (σ : Type) where
  system : System σ
  sights : ProcId → Sight
  finished : List (Return × Sight)

/-- The answer of a `receive_at` is the right one for what its section saw. -/
structure Sight.Answers (sight : Sight) (deadline : UInt64) (answer : Answer) : Prop where
  closed : answer = .error .closed ↔ sight.closed = true
  message : ∀ msg rest, sight.closed = false → sight.queued = msg :: rest → answer = .ok (some msg)
  timeout : sight.closed = false → sight.queued = [] →
    answer = .ok (some timeoutMessage) ∧ deadline ≤ sight.now

/-- A section that lets a `receive_at` wait: an open channel, nothing queued, and the counter below
the deadline. -/
structure Sight.Waits (sight : Sight) (deadline : UInt64) : Prop where
  opened : sight.closed = false
  empty : sight.queued = []
  early : sight.now < deadline

/-- A context at this point has decided to wait or is waiting. -/
def Pc.waits : Pc → Bool
  | .blocking => true
  | .asleep => true
  | _ => false

/-- A context in a `receive_at` answers or waits as its last section saw it. -/
structure Thread.Follows (thread : Thread) (sight : Sight) : Prop where
  leaving : ∀ deadline wakes answer, thread.call = .receiveAt deadline →
    thread.pc = .leaving wakes answer → sight.Answers deadline answer
  waiting : ∀ deadline, thread.call = .receiveAt deadline → thread.pc.waits = true →
    sight.Waits deadline

/-- Every `receive_at` answers or waits as its last section saw it. -/
structure Decided (seen : Seen σ) : Prop where
  pending : ∀ id, (seen.system.threads id).Follows (seen.sights id)
  finished : ∀ entry ∈ seen.finished, ∀ deadline, entry.1.call = .receiveAt deadline →
    entry.2.Answers deadline entry.1.answer

section

variable [IpcScheduler σ]

/-- What a section would see now. -/
def System.sight (system : System σ) : Sight :=
  ⟨system.inner.closed, system.inner.queue.contents, now system.sched⟩

/-- The context that enters the first section of a pass in an event. -/
def System.entering (system : System σ) : Event σ → Option ProcId
  | .advance id => if (system.threads id).pc = .enter then some id else none
  | _ => none

/-- One event, with a note of what a section saw and of the call that finished. -/
def Seen.step (seen : Seen σ) (event : Event σ) : Option (Seen σ) :=
  (Interleave.step seen.system event).map fun next =>
    { system := next
      sights := fun id =>
        if seen.system.entering event = some id then seen.system.sight else seen.sights id
      finished := seen.finished ++ (next.returned.drop seen.system.returned.length).map fun done =>
          (done, seen.sights done.id) }

/-- All contexts outside any call. -/
def Seen.initial (queue : BoundedQueue) (sched : σ) : Seen σ :=
  ⟨Interleave.initial queue sched, fun _ => ⟨false, [], 0⟩, []⟩

/-! ## One section -/

lemma receiveAt_decides {inner : ChannelInner} (sound : inner.Sound) (deadline : UInt64)
    (id : ProcId) (sched : σ) :
    (∃ wakes answer, (sectionEffect (.receiveAt deadline) id sched inner).pc =
      .leaving wakes answer ∧
      (Sight.mk inner.closed inner.queue.contents (now sched)).Answers deadline answer) ∨
    (sectionEffect (.receiveAt deadline) id sched inner).pc = .blocking ∧
      (Sight.mk inner.closed inner.queue.contents (now sched)).Waits deadline := by
  have ran := receiveLocked_case sound (some deadline) id sched
  have nothing : inner.queue.len = 0 → inner.queue.contents = [] := by
    intro empty
    apply List.eq_nil_of_length_eq_zero
    rw [sound.formed.holds.2]
    exact empty
  simp only [sectionEffect, receiveAtSection]
  generalize receiveLocked (some deadline) id sched inner = result at ran
  cases ran with
  | closed shut =>
    refine .inl ⟨[], .error .closed, rfl, ?_⟩
    constructor <;> simp [shut]
  | message msg _ opened _ first =>
    refine .inl ⟨_, .ok (some msg), rfl, ?_⟩
    constructor <;> simp [opened, first]
  | timeout _ bounded opened empty reached =>
    cases bounded
    refine .inl ⟨[], .ok (some timeoutMessage), rfl, ?_⟩
    constructor <;> simp [opened, nothing empty, reached]
  | block opened empty early => exact .inr ⟨rfl, opened, nothing empty, early deadline rfl⟩

end

/-! ## Whole runs -/

/-- What is kept of a context: it follows its sight, and a bounded receive has one section in a
pass. -/
structure Thread.Attends (thread : Thread) (sight : Sight) : Prop where
  follows : thread.Follows sight
  single : ∀ deadline full, thread.call = .receiveAt deadline → thread.pc ≠ .recheck full

/-- The invariant of the runs. -/
structure Attentive (seen : Seen σ) : Prop where
  coherent : Coherent seen.system
  pending : ∀ id, (seen.system.threads id).Attends (seen.sights id)
  finished : ∀ entry ∈ seen.finished, ∀ deadline, entry.1.call = .receiveAt deadline →
    entry.2.Answers deadline entry.1.answer

variable {thread : Thread}

lemma Thread.Attends.away (sight : Sight)
    (stays : ∀ wakes answer, thread.pc ≠ .leaving wakes answer) (active : thread.pc.waits = false)
    (single : ∀ full, thread.pc ≠ .recheck full) : thread.Attends sight := by
  refine ⟨⟨?_, ?_⟩, fun _ full _ => single full⟩
  · intro _ wakes answer _ leaving
    exact absurd leaving (stays wakes answer)
  · intro _ _ waits
    rw [active] at waits
    contradiction

lemma Thread.Attends.other (sight : Sight)
    (different : ∀ deadline, thread.call ≠ .receiveAt deadline) : thread.Attends sight := by
  refine ⟨⟨?_, ?_⟩, ?_⟩
  · intro deadline _ _ call
    exact absurd call (different deadline)
  · intro deadline call
    exact absurd call (different deadline)
  · intro deadline _ call
    exact absurd call (different deadline)

variable {sight : Sight}

lemma Thread.Attends.leave {answer : Answer}
    (answers : ∀ deadline, thread.call = .receiveAt deadline → sight.Answers deadline answer)
    {wakes : List ProcId} (point : thread.pc = .leaving wakes answer) : thread.Attends sight := by
  refine ⟨⟨?_, ?_⟩, ?_⟩
  · intro deadline _ _ call leaving
    obtain ⟨-, rfl⟩ := Pc.leaving.inj (point.symm.trans leaving)
    exact answers deadline call
  · intro _ _ waits
    rw [point] at waits
    contradiction
  · intro _ _ _ recheck
    cases point.symm.trans recheck

lemma Thread.Attends.wait (waits : ∀ deadline, thread.call = .receiveAt deadline →
    sight.Waits deadline)
    (point : thread.pc = .blocking ∨ thread.pc = .asleep) : thread.Attends sight := by
  refine ⟨⟨?_, fun deadline call _ => waits deadline call⟩, ?_⟩
  · intro _ _ _ _ leaving
    rcases point with blocking | asleep
    · cases blocking.symm.trans leaving
    · cases asleep.symm.trans leaving
  · intro _ _ _ recheck
    rcases point with blocking | asleep
    · cases blocking.symm.trans recheck
    · cases asleep.symm.trans recheck

lemma attends_update {threads : ProcId → Thread} {sights : ProcId → Sight}
    (pending : ∀ id, (threads id).Attends (sights id)) (id : ProcId)
    (moved : thread.Attends (sights id)) (other : ProcId) :
    (update threads id thread other).Attends (sights other) := by
  by_cases same : other = id
  · subst same
    rw [update_self]
    exact moved
  rw [update_of_ne same]
  exact pending other

section

variable [IpcScheduler σ]

lemma enter_attends {seen : Seen σ} (attentive : Attentive seen) (id : ProcId) :
    ((seen.system.enter id).threads id).Attends seen.system.sight := by
  cases called : (seen.system.threads id).call with
  | receiveAt deadline =>
    have same : ((seen.system.enter id).threads id).call = .receiveAt deadline := by
      simp [System.enter, called]
    have point : ((seen.system.enter id).threads id).pc =
        (sectionEffect (.receiveAt deadline) id seen.system.sched seen.system.inner).pc := by
      simp [System.enter, called]
    rcases receiveAt_decides attentive.coherent.sound deadline id seen.system.sched with
      ⟨wakes, answer, leaves, answers⟩ | ⟨blocks, waits⟩
    · apply Thread.Attends.leave _ (point.trans leaves)
      intro _ call
      obtain rfl := Call.receiveAt.inj (same.symm.trans call)
      exact answers
    apply Thread.Attends.wait _ (.inl (point.trans blocks))
    intro _ call
    obtain rfl := Call.receiveAt.inj (same.symm.trans call)
    exact waits
  | _ =>
    apply Thread.Attends.other
    intro _ call
    simp [System.enter, called] at call

section

variable {seen : Seen σ} {next : System σ} {event : Event σ} (attentive : Attentive seen)
    (ran : StepCase seen.system event next)
include attentive ran

lemma step_pending (id : ProcId) : (next.threads id).Attends
      (if seen.system.entering event = some id then seen.system.sight else seen.sights id) := by
  have pending := attentive.pending
  have quiet : ∀ caller thread, seen.system.entering event = none →
      next.threads = update seen.system.threads caller thread →
      thread.Attends (seen.sights caller) →
      (next.threads id).Attends
        (if seen.system.entering event = some id then seen.system.sight else seen.sights id) := by
    intro caller _ unseen threads moved
    rw [unseen, threads]
    exact attends_update pending caller moved id
  cases ran with
  | start caller => exact quiet caller _ rfl rfl (.away _ (by simp) rfl (by simp))
  | outside => exact pending id
  | enter caller point =>
    have entering : seen.system.entering (.advance caller) = some caller := if_pos point
    by_cases same : id = caller
    · subst same
      rw [if_pos entering]
      exact enter_attends attentive id
    have kept : (seen.system.enter caller).threads id = seen.system.threads id :=
      update_of_ne same _ _
    rw [entering, if_neg fun equal => same (Option.some.inj equal).symm, kept]
    exact pending id
  | recheck caller full point =>
    apply quiet caller _ (if_neg (by simp [point])) rfl
    apply Thread.Attends.other
    intro deadline call
    exact (pending caller).single deadline full call point
  | wake caller _ _ answer point =>
    apply quiet caller _ (if_neg (by simp [point])) rfl
    exact .leave (fun deadline call => (pending caller).follows.leaving deadline _ answer
      call point) rfl
  | finish caller answer point | awake caller point =>
    exact quiet caller _ (if_neg (by simp [point])) rfl (.away _ (by simp) rfl (by simp))
  | block caller point =>
    apply quiet caller _ (if_neg (by simp [point])) rfl
    exact .wait (fun deadline call => (pending caller).follows.waiting deadline call
      (by rw [point]; rfl)) (.inr rfl)

lemma step_finished : ∀ entry ∈ (next.returned.drop seen.system.returned.length).map
        (fun done => (done, seen.sights done.id)),
      ∀ deadline, entry.1.call = .receiveAt deadline → entry.2.Answers deadline entry.1.answer := by
  cases ran with
  | finish caller answer point =>
    intro _ member deadline call
    simp only [System.finish, List.drop_left, List.map_cons, List.map_nil,
      List.mem_singleton] at member
    subst member
    exact (attentive.pending caller).follows.leaving deadline [] answer call point
  | _ => simp [System.enter, System.goto]

end

lemma step_attentive (seen : Seen σ) (event : Event σ) (next : Seen σ)
    (attentive : Attentive seen) (taken : seen.step event = some next) : Attentive next := by
  obtain ⟨_, stepped, rfl⟩ := Option.map_eq_some_iff.mp taken
  have ran := step_case stepped
  refine ⟨(step_coherent attentive.coherent stepped).1, step_pending attentive ran, ?_⟩
  intro entry member deadline call
  rcases List.mem_append.mp member with old | new
  · exact attentive.finished entry old deadline call
  · exact step_finished attentive ran entry new deadline call

omit [IpcScheduler σ] in
lemma initial_attentive {queue : BoundedQueue} (formed : queue.WellFormed) (sched : σ) :
    Attentive (Seen.initial queue sched) where
  coherent := initial_coherent formed sched
  pending _ := .away _ (by simp [Seen.initial, initial]) rfl (by simp [Seen.initial, initial])
  finished := by simp [Seen.initial]

/-! ## Past the deadline -/

/-- The counter is at or past a deadline, and a context is not waiting in a `receive_at` for it. -/
structure Past (id : ProcId) (deadline : UInt64) (seen : Seen σ) : Prop where
  reached : deadline ≤ now seen.system.sched
  awake : (seen.system.threads id).call = .receiveAt deadline → (seen.system.threads id).pc.waits =
    false

/-- The counter does not run backwards in an event. -/
def CounterRises (seen : Seen σ) (event : Event σ) : Prop :=
  ∀ next, seen.step event = some next →
    now seen.system.sched ≤ now next.system.sched

lemma step_past {id : ProcId} {deadline : UInt64} (seen : Seen σ) (event : Event σ)
    (next : Seen σ) (held : Attentive seen ∧ Past id deadline seen)
    (rises : CounterRises seen event) (taken : seen.step event = some next) :
    Attentive next ∧ Past id deadline next := by
  obtain ⟨attentive, past⟩ := held
  refine ⟨step_attentive seen event next attentive taken, UInt64.le_trans past.reached
    (rises next taken), ?_⟩
  obtain ⟨system, stepped, rfl⟩ := Option.map_eq_some_iff.mp taken
  have ran := step_case stepped
  have moved : ∀ caller thread, system.threads = update seen.system.threads caller thread →
      (caller = id → thread.call = .receiveAt deadline → thread.pc.waits = false) →
      (system.threads id).call = .receiveAt deadline → (system.threads id).pc.waits = false := by
    intro caller _ threads active
    rw [threads]
    by_cases same : id = caller
    · subst same
      rw [update_self]
      exact active rfl
    rw [update_of_ne same]
    exact past.awake
  cases ran with
  | start caller | wake caller | finish caller | awake caller =>
    exact moved caller _ rfl fun _ _ => rfl
  | outside => exact past.awake
  | enter caller =>
    apply moved caller _ rfl
    intro _ call
    have called : (seen.system.threads caller).call = .receiveAt deadline := call
    rw [called]
    rcases receiveAt_decides attentive.coherent.sound deadline caller seen.system.sched with
      ⟨wakes, answer, leaves, -⟩ | ⟨-, waits⟩
    · rw [leaves]
      rfl
    · exact absurd waits.early (UInt64.not_lt.mpr past.reached)
  | recheck caller full point =>
    apply moved caller _ rfl
    intro _ call
    exact absurd point ((attentive.pending caller).single deadline full call)
  | block caller point =>
    apply moved caller _ rfl
    intro same call
    subst same
    have active := past.awake call
    rw [point] at active
    contradiction

end

lemma late_block_expires {n : Nat} {table : Table n} {id : ProcId} {deadline now : UInt64}
    (running : table.stateOf id = some .running) (late : deadline ≤ now) :
    (((table.setDeadline id deadline).block id).checkDeadlines now).stateOf id =
    some .runnable := by
  obtain ⟨process, held, state⟩ := Option.map_eq_some_iff.mp running
  have bound : id < n := by
    by_contra outside
    simp [Table.get, outside] at held
  have slot : table ⟨id, bound⟩ = some process := by
    simpa [Table.get, bound] using held
  simp [Table.stateOf, Table.get, bound, Table.checkDeadlines, Table.block, Table.setDeadline,
    Table.modify, slot, state, Table.expired, late]

/-- Over every interleaving of the sections on a channel, whatever the scheduler does between them:
every `receive_at` answers what the last lock section of its loop saw and waits only after a section
that saw the counter below the deadline. Once the counter is past the deadline, a call that is not
waiting does not begin to; and a wait that begins past it, because the counter has moved between the
section and the block, ends at the next check of the deadlines. -/
theorem receiveAt_follows_sections [IpcScheduler σ] {queue : BoundedQueue}
    (formed : queue.WellFormed) (sched : σ) (events : List (Event σ)) :
    Throughout Seen.step Decided (Seen.initial queue sched) events ∧
    (∀ seen, run Seen.step (Seen.initial queue sched) events = some seen →
      ∀ id deadline, Past id deadline seen → ∀ later, Along Seen.step CounterRises seen later →
        Throughout Seen.step (Past id deadline) seen later) ∧
    ∀ (n : Nat) (table : Table n) id deadline now, table.stateOf id = some .running →
      deadline ≤ now →
      (((table.setDeadline id deadline).block id).checkDeadlines now).stateOf id =
      some .runnable := by
  have start := initial_attentive formed sched
  have decided : ∀ seen : Seen σ, Attentive seen → Decided seen := fun seen attentive =>
    ⟨fun id => (attentive.pending id).follows, attentive.finished⟩
  refine ⟨throughout_of_invariant step_attentive decided start events, ?_, ?_⟩
  · intro _ reached _ _ past _ rises
    have attentive := run_invariant Attentive step_attentive start reached
    exact throughout_of_along step_past (fun _ held => held.2) ⟨attentive, past⟩ rises
  · intro _ _ _ _ _ running late
    exact late_block_expires running late

def oneRunning (counter : UInt64) : KernSched 1 where
  table :=
  fun _ => some { Table.newProcess defaultPriority with state := .running }
  counter := counter

/-- A call past its deadline on a new channel answers with the timeout, and never waits. -/
theorem receiveAt_follows_sections_late :
    Throughout Seen.step Decided (Seen.initial .new (oneRunning 5))
      [.start 0 (.receiveAt 5), .advance 0, .advance 0] ∧
    Past 0 5 (Seen.initial .new (oneRunning 5)) ∧
    Throughout Seen.step (Past 0 5) (Seen.initial .new (oneRunning 5))
      [.start 0 (.receiveAt 5)] := by
  have past : Past 0 5 (Seen.initial .new (oneRunning 5)) := ⟨by decide, fun _ => rfl⟩
  have holds := receiveAt_follows_sections BoundedQueue.new_wellFormed.1 (oneRunning 5)
  refine ⟨(holds _).1, past, (holds []).2.1 _ rfl 0 5 past _ ?_⟩
  intro next taken
  refine ⟨?_, trivial⟩
  intro _ taken
  cases taken
  exact UInt64.le_refl _

def racedBlock : List (Event (KernSched 1)) :=
    [.start 0 (.receiveAt 5), .advance 0, .outside (oneRunning 5)]

/-- The call then blocks, with the counter at its deadline. -/
theorem block_past_deadline :
    ∃ before after, run step (initial .new (oneRunning 4)) racedBlock = some before ∧
      step before (.advance 0) = some after ∧
      5 ≤ IpcScheduler.now before.sched ∧ (before.threads 0).call = .receiveAt 5 ∧
      (before.threads 0).pc = .blocking ∧ before.sched.table.stateOf 0 = some .running ∧
      (after.threads 0).pc = .asleep ∧ after.sched.table.stateOf 0 = some .blocked :=
  ⟨_, _, rfl, rfl, by decide, rfl, rfl, rfl, rfl, rfl⟩

end R9x.Verif.Interleave
