import R9x.Verif.LockDiscipline

/-!
# Interrupts over whole runs

The calls that the kernel makes outside of traps lock the process table and the channels without a
guard, and once the tick runs, interrupt handlers lock them too.
-/

namespace R9x.Verif.IrqRuns

open Lib Aarch64.IrqLocks LockDiscipline
open List (replicate)

/-! ## The invariant -/

/-- The code of a frame keeps the discipline, and it holds no lock of a handler while interrupts are
not masked. -/
structure FrameOk (tick masked : Bool) (frame : Frame) : Prop where
  code : Disciplined frame.entry.toList tick masked frame.saved frame.held frame.acts
  cold : masked = false → Cold tick frame.held

def StackOk (tick : Bool) : Bool → List Frame → Prop
  | _, [] => True
  | masked, frame :: rest =>
    FrameOk tick masked frame ∧ (∀ below ∈ rest, Cold tick below.held) ∧
      (rest ≠ [] → TakesHot tick frame.acts) ∧
      match frame.entry with
      | none => rest = []
      | some before => StackOk tick before rest

def Rested (frames : List Frame) : Prop :=
    StackOk true true frames ∧ ∀ frame ∈ frames, Cold true frame.held

/-- What every run keeps. -/
structure Inv (core : Core) : Prop where
  stack : StackOk core.tick core.masked core.stack
  user : core.current.isSome = true → core.tick = true
  routed : core.routes ≠ [] → core.tick = true
  parked : ∀ slot frames, core.parked slot = some frames → Rested frames
  starter : Rested core.starter

section

variable {tick masked : Bool} {frame : Frame} {rest : List Frame} {acts : List Act}

lemma StackOk.replace {masked' : Bool} {frame' : Frame} (ok : StackOk tick masked (frame :: rest))
    (entry : frame'.entry = frame.entry) (later : ∀ lock, .acquire lock ∈ frame'.acts →
      .acquire lock ∈ frame.acts) (new : FrameOk tick masked' frame') :
    StackOk tick masked' (frame' :: rest) := by
  obtain ⟨-, cold, takes, below⟩ := ok
  refine ⟨new, cold, fun inner lock member => takes inner lock (later lock member), ?_⟩
  rw [entry]
  exact below

lemma StackOk.outermost (ok : StackOk tick masked (frame :: rest))
    (call : frame.entry.toList = []) : rest = [] := by
  obtain ⟨-, -, -, below⟩ := ok
  cases entry : frame.entry with
  | none =>
    rw [entry] at below
    exact below
  | some =>
    rw [entry] at call
    cases call

lemma StackOk.cold {stack : List Frame} (ok : StackOk tick false stack) :
    ∀ frame ∈ stack, Cold tick frame.held := by
  cases stack with
  | nil => exact nofun
  | cons =>
    intro other member
    rcases List.mem_cons.mp member with rfl | member
    · exact ok.1.cold rfl
    · exact ok.2.1 other member

end

section

variable {core next : Core} {frame : Frame} {rest : List Frame}

/-- The innermost frame takes a step. -/
lemma Inv.advance (inv : Inv core) (running : core.stack = frame :: rest)
    (taken : core.advance frame rest = some next) : Inv next := by
  have ok := inv.stack
  rw [running] at ok
  obtain ⟨⟨code, cold⟩, below, takes, outer⟩ := ok
  have ok : StackOk core.tick core.masked (frame :: rest) := ⟨⟨code, cold⟩, below, takes, outer⟩
  obtain ⟨entry, acts, saved, held⟩ := frame
  unfold Core.advance at taken
  cases acts with
  | nil =>
    cases entry with
    | none =>
      cases taken
      obtain rfl : rest = [] := outer
      exact ⟨trivial, inv.user, inv.routed, inv.parked, inv.starter⟩
    | some =>
      cases taken
      exact ⟨outer, inv.user, inv.routed, inv.parked, inv.starter⟩
  | cons act acts =>
    have later : ∀ lock, Act.acquire lock ∈ acts → Act.acquire lock ∈ act :: acts :=
      fun lock member => List.mem_cons_of_mem _ member
    cases act with
    | mask =>
      cases taken
      exact ⟨ok.replace rfl later ⟨code, nofun⟩, inv.user, inv.routed, inv.parked, inv.starter⟩
    | restore =>
      obtain ⟨_, _, rfl, restored, code⟩ := code
      cases taken
      exact ⟨ok.replace rfl later ⟨code, restored⟩, inv.user, inv.routed, inv.parked, inv.starter⟩
    | acquire =>
      obtain ⟨allowed, code⟩ := code
      dsimp only at taken
      split at taken
      · cases taken
      cases taken
      exact ⟨ok.replace rfl later ⟨code, Cold.cons allowed cold⟩, inv.user, inv.routed, inv.parked,
        inv.starter⟩
    | release lock =>
      cases taken
      have cold' : core.masked = false → Cold core.tick (held.erase lock) :=
        fun unmasked other member => cold unmasked other (List.mem_of_mem_erase member)
      exact ⟨ok.replace rfl later ⟨code, cold'⟩, inv.user, inv.routed, inv.parked, inv.starter⟩
    | startTick =>
      obtain ⟨⟨call, empty⟩, code⟩ := code
      obtain rfl := ok.outermost call
      cases taken
      have cold' : core.masked = false → Cold true held := by
        intro _ _ member
        rw [show held = [] from empty] at member
        cases member
      refine ⟨⟨⟨code, cold'⟩, nofun, fun inner => absurd rfl inner, ?_⟩, fun _ => rfl, fun _ => rfl,
        inv.parked, inv.starter⟩
      cases entry with
      | none => exact rfl
      | some => cases call
    | install =>
      dsimp only at taken
      split at taken
      · cases taken
      cases taken
      refine ⟨ok.replace rfl later ⟨code, cold⟩, inv.user, inv.routed, ?_, inv.starter⟩
      intro other frames found
      dsimp only at found
      split at found
      · cases found
        exact ⟨trivial, nofun⟩
      · exact inv.parked other frames found
    | claim =>
      obtain ⟨started, code⟩ := code
      cases taken
      exact ⟨ok.replace rfl later ⟨code, cold⟩, inv.user, fun _ => started, inv.parked, inv.starter⟩
    | swtch => cases taken

lemma Inv.rested {acts : List Act} (inv : Inv core) (running : core.stack = frame :: rest)
    (switches : frame.acts = .swtch :: acts) :
    core.tick = true ∧ Rested ({ frame with acts := acts } :: rest) := by
  have ok := inv.stack
  rw [running] at ok
  obtain ⟨⟨code, -⟩, below, takes, outer⟩ := ok
  rw [switches] at code takes
  obtain ⟨⟨started, empty⟩, code⟩ := code
  rw [started] at below takes outer
  have cold : Cold true frame.held := by
    rw [empty]
    exact nofun
  have inner : rest ≠ [] → TakesHot true acts :=
    fun some_rest lock member => takes some_rest lock (List.mem_cons_of_mem _ member)
  refine ⟨started, ⟨⟨⟨code, nofun⟩, below, inner, outer⟩, ?_⟩⟩
  intro other member
  rcases List.mem_cons.mp member with rfl | member
  · exact cold
  · exact below other member

lemma Inv.park {frames : List Frame} (inv : Inv core) (rested : Rested frames) :
    Inv (core.park frames) := by
  unfold Core.park
  split
  · exact ⟨inv.stack, inv.user, inv.routed, inv.parked, rested⟩
  refine ⟨inv.stack, inv.user, inv.routed, ?_, inv.starter⟩
  intro other found same
  dsimp only at same
  split at same
  · cases same
    exact rested
  · exact inv.parked other found same

lemma tick_park (core : Core) (frames : List Frame) : (core.park frames).tick = core.tick := by
  unfold Core.park
  split <;> rfl

lemma Inv.resume {target : Target} (inv : Inv core) (started : core.tick = true)
    (taken : core.resume target = some next) : Inv next := by
  cases target with
  | starter =>
    unfold Core.resume at taken
    dsimp only at taken
    split at taken
    · cases taken
      have ok := inv.starter.1
      rw [← started] at ok
      refine ⟨?_, nofun, inv.routed, inv.parked, inv.starter⟩
      rw [started] at ok ⊢
      exact ok
    · cases taken
  | process slot =>
    obtain ⟨frames, found, rfl⟩ := Option.map_eq_some_iff.mp taken
    refine ⟨?_, fun _ => started, inv.routed, inv.parked, inv.starter⟩
    have ok := (inv.parked slot frames found).1
    rw [started]
    cases frames with
    | nil => exact trivial
    | cons => exact ok

/-- The calls of the kernel that lock the process table or a channel are made with interrupts
masked, or before the tick is started. -/
def Admitted (core : Core) : Label → Prop
  | .call call => unguarded call = true → core.masked = true ∨ core.tick = false
  | _ => True

/-- Every admitted step keeps the invariant. -/
lemma Inv.keeps (core : Core) (label : Label) (next : Core) (inv : Inv core)
    (admitted : Admitted core label) (taken : step core label = some next) : Inv next := by
  have kernel : core.inKernel = true → core.stack = [] := by
    intro idle
    have empty := (Bool.and_eq_true_iff.mp idle).1
    exact List.isEmpty_iff.mp empty
  have quiet : core.stack = [] → ∀ masked, StackOk core.tick masked core.stack := by
    intro empty masked
    rw [empty]
    exact trivial
  cases label with
  | unmaskIrqs | guard =>
    obtain ⟨idle, same⟩ := Option.ite_none_right_eq_some.mp taken
    cases same
    exact ⟨quiet (kernel idle) _, inv.user, inv.routed, inv.parked, inv.starter⟩
  | unguard =>
    simp only [step] at taken
    split at taken
    · rename_i idle _
      cases taken
      exact ⟨quiet (kernel idle) _, inv.user, inv.routed, inv.parked, inv.starter⟩
    · cases taken
  | call call =>
    obtain ⟨_, same⟩ := Option.ite_none_right_eq_some.mp taken
    cases same
    have allowed : unguarded call = true → core.tick = true → core.masked = true := by
      intro bare started
      rcases admitted bare with masked | stopped
      · exact masked
      · cases started.symm.trans stopped
    have frame : FrameOk core.tick core.masked ⟨none, call.acts core.tick, [], []⟩ :=
      ⟨call_disciplined allowed, fun _ => nofun⟩
    exact ⟨⟨frame, nofun, fun inner => absurd rfl inner, rfl⟩, inv.user, inv.routed, inv.parked,
      inv.starter⟩
  | syscall call =>
    obtain ⟨⟨empty, process⟩, same⟩ := Option.ite_none_right_eq_some.mp taken
    cases same
    have code : Disciplined [core.masked] core.tick true [core.masked] [] call.acts := by
      have done := syscall_trap call [core.masked] [core.masked] [] ⟨rfl, rfl⟩
      rw [List.append_nil] at done
      rw [inv.user process]
      exact done
    exact ⟨⟨⟨code, nofun⟩, nofun, fun inner => absurd rfl inner, trivial⟩, inv.user, inv.routed,
      inv.parked,
      inv.starter⟩
  | irq =>
    obtain ⟨⟨unmasked, possible⟩, same⟩ := Option.ite_none_right_eq_some.mp taken
    cases same
    have ok := inv.stack
    rw [unmasked] at ok
    exact ⟨⟨⟨irq_disciplined inv.user, nofun⟩, ok.cold, fun _ => irq_takesHot possible inv.routed,
      ok⟩,
      inv.user, inv.routed, inv.parked, inv.starter⟩
  | run =>
    simp only [step] at taken
    split at taken
    · cases taken
    rename_i running
    exact inv.advance running taken
  | swtch =>
    simp only [step] at taken
    split at taken
    · cases taken
    rename_i running
    split at taken
    · rename_i switches
      obtain ⟨started, rested⟩ := inv.rested running switches
      exact (inv.park rested).resume ((tick_park core _).trans started) taken
    · cases taken

end

/-! ## Runs -/

/-- No handler waits for a lock of the code it interrupted, and the locks that a handler can take
are held only while interrupts are masked. -/
structure Safe (core : Core) : Prop where
  waits : ∀ frame rest lock acts, core.stack = frame :: rest → frame.acts = .acquire lock :: acts →
    ∀ below ∈ rest, lock ∉ below.held
  running : core.masked = false → ∀ frame ∈ core.stack, Cold core.tick frame.held
  parked : ∀ slot frames, core.parked slot = some frames → ∀ frame ∈ frames,
    Cold core.tick frame.held
  starter : ∀ frame ∈ core.starter, Cold core.tick frame.held

lemma cold_anyTick {held : List LockId} (cold : Cold true held) (tick : Bool) : Cold tick held := by
  intro lock member
  have here := cold lock member
  cases lock <;> first | exact here | cases here

lemma Inv.safe (core : Core) (inv : Inv core) : Safe core := by
  constructor
  case waits =>
    intro _ _ lock _ running taking below member held
    have ok := inv.stack
    rw [running] at ok
    obtain ⟨-, cold, takes, -⟩ := ok
    have taken : hot core.tick lock = true := by
      apply takes (List.ne_nil_of_mem member)
      rw [taking]
      exact List.mem_cons_self
    cases taken.symm.trans (cold below member lock held)
  case running =>
    intro unmasked
    have ok := inv.stack
    rw [unmasked] at ok
    exact ok.cold
  case parked =>
    exact fun slot frames found frame member =>
      cold_anyTick ((inv.parked slot frames found).2 frame member) _
  case starter => exact fun frame member => cold_anyTick (inv.starter.2 frame member) _

lemma Inv.boot : Inv .boot :=
    ⟨trivial, nofun, fun some_route => absurd rfl some_route, nofun, trivial, nofun⟩

/-- Over every run of one core in which the kernel locks the process table and channels only with
interrupts masked or before the tick is started, no interrupt handler waits for a lock of the code
it interrupted, and the locks that a handler can take are held only while interrupts are masked. -/
theorem handlers_never_wait (labels : List Label) (admitted : Along step Admitted .boot labels) :
    Throughout step Safe .boot labels :=
  throughout_of_along Inv.keeps Inv.safe Inv.boot admitted

def bootAndRun : List Label :=
  [.unmaskIrqs, .call (.spawn 1 0)] ++ replicate 6 .run ++ [.call .runAll] ++ replicate 14 .run ++
    [.swtch (.process 0), .syscall (.exit [])] ++ replicate 6 .run ++ [.swtch .starter] ++
    replicate 2 .run

instance (core : Core) (label : Label) : Decidable (Admitted core label) :=
  match label with
  | .call call => inferInstanceAs (Decidable (unguarded call = true → core.masked = true ∨
      core.tick = false))
  | .unmaskIrqs | .guard | .unguard | .syscall _ | .irq _ | .run | .swtch _ => .isTrue trivial

def guardedStatus : List Label :=
  bootAndRun ++ [.guard, .call .status, .run, .run, .run, .unguard, .irq (.timer true 0 false)] ++
    replicate 11 .run

/-- The run with the guard is safe. -/
theorem handlers_never_wait_guarded : Along step Admitted .boot guardedStatus ∧
      (run step .boot guardedStatus).isSome = true ∧ Throughout step Safe .boot guardedStatus := by
  have admitted : Along step Admitted .boot guardedStatus := by decide +kernel
  exact ⟨admitted, by decide +kernel, handlers_never_wait guardedStatus admitted⟩

def interruptedStatus : List Label :=
  bootAndRun ++ [.call .status, .run, .irq (.timer true 0 false)] ++ replicate 8 .run

def waiting (core : Core) : Bool :=
  match core.stack with
  | ⟨_, .acquire lock :: _, _, _⟩ :: rest => rest.any fun below => lock ∈ below.held
  | _ => false

/-- The handler then waits for the process table with interrupts masked, for ever. -/
theorem status_interrupted : ∃ core, run step .boot interruptedStatus = some core ∧
    core.masked = true ∧ step core .run = none ∧ ¬ Safe core := by
  have evaluated : ((run step .boot interruptedStatus).any fun core =>
      core.masked && (step core .run).isNone && waiting core) = true := by decide +kernel
  obtain ⟨core, reached, all⟩ := (Option.any_eq_true _ _).mp evaluated
  obtain ⟨stuck, waits⟩ := Bool.and_eq_true_iff.mp all
  obtain ⟨masked, stuck⟩ := Bool.and_eq_true_iff.mp stuck
  refine ⟨core, reached, masked, Option.isNone_iff_eq_none.mp stuck, ?_⟩
  intro safe
  unfold waiting at waits
  split at waits
  · rename_i lock acts _ _ rest running
    obtain ⟨below, member, holds⟩ := List.any_eq_true.mp waits
    exact safe.waits _ rest lock acts running rfl below member (of_decide_eq_true holds)
  · cases waits

end R9x.Verif.IrqRuns
