import R9x.Verif.ChannelRuns

/-!
# How often a returned `send` has pushed its message

`send` tells a full queue from a finished push by reading the shared waiter slot under a second lock
acquisition.
-/

namespace R9x.Verif.Interleave

open Lib Port.Ipc Aarch64

variable {σ : Type} [IpcScheduler σ]

/-- A finished `send` pushed exactly once if it returned `Ok`, and not at all otherwise. -/
def Return.Exact (finished : Return) : Prop :=
  ∀ msg, finished.call = .send msg →
    finished.pushes = match finished.answer with
      | .ok _ => 1
      | .error _ => 0

/-- Every finished `send` of the system is exact. -/
def SendsExact (system : System σ) : Prop := ∀ finished ∈ system.returned, finished.Exact

/-- A sender that re-reads the waiter slot sees it taken exactly if its own first section found the
queue full. -/
def RereadAgrees (system : System σ) : Event σ → Prop
  | .advance id =>
    match (system.threads id).pc with
    | .recheck full => sendBlocked system.inner = full
    | _ => True
  | _ => True

instance (system : System σ) (event : Event σ) : Decidable (RereadAgrees system event) := by
  unfold RereadAgrees
  split
  · split <;> infer_instance
  · infer_instance

def Pc.Accounts : Pc → Nat → Prop
  | .idle, _ => True
  | .enter, pushes => pushes = 0
  | .recheck full, pushes => pushes = if full then 0 else 1
  | .leaving _ answer, pushes => pushes = match answer with
    | .ok _ => 1
    | .error _ => 0
  | .blocking, pushes => pushes = 0
  | .asleep, pushes => pushes = 0
  | .panicked _, _ => True

lemma sectionEffect_accounts {inner : ChannelInner} (sound : inner.Sound) (msg : Message)
    (id : ProcId) (sched : σ) :
    (sectionEffect (.send msg) id sched inner).pc.Accounts
      (sectionEffect (.send msg) id sched inner).pushed.length := by
  have ran := sendSection_case sound (some id) msg sched
  simp only [sectionEffect]
  generalize sendSection (some id) msg sched inner = result at ran
  cases ran <;> simp [sendEffect, Pc.Accounts]

/-- Every `send` in progress and every finished one is accounted for. -/
structure Accounted (system : System σ) : Prop where
  coherent : Coherent system
  pending : ∀ id msg, (system.threads id).call = .send msg →
    (system.threads id).pc.Accounts (system.threads id).pushes
  exact : SendsExact system

omit [IpcScheduler σ] in
lemma goto_pending {system : System σ} (pending : ∀ id msg, (system.threads id).call = .send msg →
      (system.threads id).pc.Accounts (system.threads id).pushes)
    (id : ProcId) {pc : Pc}
    (point : ∀ msg, (system.threads id).call = .send msg → pc.Accounts (system.threads id).pushes)
    (other : ProcId) (msg : Message) (sending : ((system.goto id pc).threads other).call =
      .send msg) :
    ((system.goto id pc).threads other).pc.Accounts ((system.goto id pc).threads other).pushes := by
  by_cases same : other = id
  · subst same
    simp only [System.goto, Function.update_self] at sending ⊢
    exact point msg sending
  simp only [System.goto, Function.update_of_ne same] at sending ⊢
  exact pending other msg sending

/-- An event whose re-read agrees keeps everything accounted for. -/
lemma step_accounted (system : System σ) (event : Event σ) (next : System σ)
    (accounted : Accounted system) (agrees : RereadAgrees system event)
    (taken : step system event = some next) : Accounted next := by
  have coherent := (step_coherent accounted.coherent taken).1
  have sound := accounted.coherent.sound
  obtain ⟨-, pending, exact⟩ := accounted
  have ran := step_case taken
  cases ran with
  | start id =>
    refine ⟨coherent, fun other msg sending => ?_, exact⟩
    by_cases same : other = id
    · subst same
      simp [Pc.Accounts]
    simp only [Function.update_of_ne same] at sending ⊢
    exact pending other msg sending
  | outside => exact ⟨coherent, pending, exact⟩
  | enter id point =>
    refine ⟨coherent, fun other msg sending => ?_, exact⟩
    by_cases same : other = id
    · subst same
      simp only [System.enter, Function.update_self] at sending ⊢
      have fresh := pending other msg sending
      rw [point] at fresh
      change (system.threads other).pushes = 0 at fresh
      rw [fresh, Nat.zero_add, sending]
      exact sectionEffect_accounts sound msg other system.sched
    simp only [System.enter, Function.update_of_ne same] at sending ⊢
    exact pending other msg sending
  | recheck id full point =>
    refine ⟨coherent, goto_pending pending id fun msg sending => ?_, exact⟩
    have counted := pending id msg sending
    simp only [RereadAgrees, point] at agrees
    rw [point] at counted
    rw [agrees]
    cases full <;> exact counted
  | wake id waiter wakes answer point | block id point | awake id point =>
    refine ⟨coherent, goto_pending pending id fun msg sending => ?_, exact⟩
    have counted := pending id msg sending
    rw [point] at counted
    exact counted
  | finish id answer point =>
    refine ⟨coherent, goto_pending pending id fun msg sending => trivial, fun finished member => ?_⟩
    rcases List.mem_append.mp member with old | new
    · exact exact finished old
    obtain rfl := List.mem_singleton.mp new
    intro msg sending
    have counted := pending id msg sending
    rw [point] at counted
    exact counted

/-- In every run whose re-reads agree with the sender's own first section, every `send` that has
returned pushed its message exactly once if it returned `Ok` and not at all if it returned an
error. -/
theorem send_exactly_once {queue : BoundedQueue} (formed : queue.WellFormed) (sched : σ)
    (events : List (Event σ)) (agrees : Along step RereadAgrees (initial queue sched) events) :
    Throughout step SendsExact (initial queue sched) events :=
  throughout_of_along step_accounted (fun _ accounted => accounted.exact)
    ⟨initial_coherent formed sched, fun _ _ _ => trivial, fun _ none => nomatch none⟩ agrees

/-! ## A run that loses a message -/

def sendAlone (id : ProcId) (msg : Message) : List (Event (KernSched 2)) :=
  [.start id (.send msg), .advance id, .advance id, .advance id]

/-- An uninterrupted `send` agrees on its re-read, and so has pushed once when it returns. -/
theorem send_exactly_once_alone :
    Throughout step SendsExact (initial .new twoProcesses) (sendAlone 0 request) :=
  send_exactly_once BoundedQueue.new_wellFormed.1 twoProcesses (sendAlone 0 request)
    (by decide)

def lostSendRun : List (Event (KernSched 2)) :=
  (List.replicate queueCap (sendAlone 0 request)).flatten ++
    [.start 0 (.send request), .advance 0, .start 1 .receive, .advance 1, .advance 0, .advance 0]

lemma lostSendRun_last :
    ((run step (initial .new twoProcesses) lostSendRun).map fun final => final.returned.getLast?) =
      some (some ⟨0, .send request, .ok none, 0⟩) := rfl

/-- A run from a new channel in which a `send` returns `Ok` and has pushed nothing. -/
theorem send_ok_without_push :
    ∃ final, run step (initial .new twoProcesses) lostSendRun = some final ∧
      ¬ SendsExact final := by
  obtain ⟨final, reached, last⟩ := Option.map_eq_some_iff.mp lostSendRun_last
  refine ⟨final, reached, fun exact => ?_⟩
  have once := exact _ (List.mem_of_getLast? last) request rfl
  exact absurd once (by decide)

end R9x.Verif.Interleave
