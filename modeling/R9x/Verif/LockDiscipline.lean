import R9x.Aarch64.IrqLocks

/-!
# Locks that interrupt handlers take

Code is disciplined if it takes a lock that an interrupt handler can take only while interrupts are
masked.
-/

namespace R9x.Verif.LockDiscipline

open Aarch64.IrqLocks

/-! ## Code that keeps the discipline -/

/-- An interrupt handler can take the lock: the process table and the channels only once the tick
runs. -/
def hot (tick : Bool) : LockId → Bool
  | .timers => true
  | .table => tick
  | .channel _ => tick
  | .pages => false
  | .console => false
  | .registry => false
  | .mailbox => false

/-- No interrupt handler can take one of the locks. -/
def Cold (tick : Bool) (held : List LockId) : Prop := ∀ lock ∈ held, hot tick lock = false

def Disciplined (base : List Bool) : Bool → Bool → List Bool → List LockId → List Act → Prop
  | _, _, saved, held, [] => saved = base ∧ held = []
  | tick, masked, saved, held, .mask :: acts => Disciplined base tick true (masked :: saved) held
      acts
  | tick, _, saved, held, .restore :: acts =>
    ∃ masked rest, saved = masked :: rest ∧ (masked = false → Cold tick held) ∧
      Disciplined base tick masked rest held acts
  | tick, masked, saved, held, .acquire lock :: acts =>
    (hot tick lock = true → masked = true) ∧ Disciplined base tick masked saved (lock :: held) acts
  | tick, masked, saved, held, .release lock :: acts =>
    Disciplined base tick masked saved (held.erase lock) acts
  | _, masked, saved, held, .startTick :: acts =>
    (base = [] ∧ held = []) ∧ Disciplined base true masked saved held acts
  | tick, masked, saved, held, .install _ :: acts => Disciplined base tick masked saved held acts
  | tick, masked, saved, held, .claim _ _ :: acts =>
    tick = true ∧ Disciplined base tick masked saved held acts
  | tick, _, saved, held, .swtch :: acts =>
    (tick = true ∧ held = []) ∧ Disciplined base true true saved held acts

def Neat (tick masked : Bool) (acts : List Act) : Prop :=
  ∀ base saved held rest, (masked = false → Cold tick held) →
    Disciplined base tick masked saved held rest → Disciplined base tick masked saved held
      (acts ++ rest)

def NeatTrap (acts : List Act) : Prop :=
  ∀ base saved rest, Disciplined base true true saved [] rest →
    Disciplined base true true saved [] (acts ++ rest)

/-- A property of code that holds of no code and of one piece of code after another. -/
structure Composes (good : List Act → Prop) : Prop where
  nil : good []
  append : ∀ {first second}, good first → good second → good (first ++ second)

section

variable {good : List Act → Prop} {acts : List Act}

lemma Composes.optional (composes : Composes good) (taken : Bool) (here : good acts) :
    good (optional taken acts) := by
  cases taken
  · exact composes.nil
  · exact here

lemma Composes.flatMap {α : Type} (composes : Composes good) {code : α → List Act}
    (here : ∀ item, good (code item)) (items : List α) : good (items.flatMap code) := by
  induction items with
  | nil => exact composes.nil
  | cons item _ ih =>
    exact composes.append (here item) ih

lemma Composes.replicate (composes : Composes good) (count : Nat) (here : good acts) :
    good (List.replicate count acts).flatten := by
  induction count with
  | zero => exact composes.nil
  | succ _ ih =>
    exact composes.append here ih

end

section

variable {tick masked : Bool} {first second : List Act} {lock : LockId}

lemma neat_composes (tick masked : Bool) : Composes (Neat tick masked) where
  nil := fun _ _ _ _ _ disciplined => disciplined
  append := by
    intro _ _ left right base saved held rest cold disciplined
    rw [List.append_assoc]
    exact left base saved held _ cold (right base saved held rest cold disciplined)

lemma Neat.nil : Neat tick masked [] := (neat_composes tick masked).nil

lemma Neat.append (left : Neat tick masked first) (right : Neat tick masked second) :
    Neat tick masked (first ++ second) := (neat_composes tick masked).append left right

lemma Neat.optional (taken : Bool) (neat : Neat tick masked first) :
    Neat tick masked (optional taken first) := (neat_composes tick masked).optional taken neat

lemma Cold.cons {held : List LockId} (allowed : hot tick lock = true → masked = true)
    (cold : masked = false → Cold tick held) (unmasked : masked = false) :
    Cold tick (lock :: held) := by
  intro other member
  rcases List.mem_cons.mp member with rfl | member
  · apply Bool.eq_false_iff.mpr
    intro taken
    cases unmasked.symm.trans (allowed taken)
  · exact cold unmasked other member

lemma Neat.locked (allowed : hot tick lock = true → masked = true)
    (body : Neat tick masked first) : Neat tick masked (locked lock first) := by
  intro base saved held rest cold disciplined
  have released : Disciplined base tick masked saved (lock :: held) (.release lock :: rest) := by
    change Disciplined base tick masked saved ((lock :: held).erase lock) rest
    rw [List.erase_cons_head]
    exact disciplined
  rw [Aarch64.IrqLocks.locked, List.cons_append, List.append_assoc]
  exact ⟨allowed, body base saved _ _ (Cold.cons allowed cold) released⟩

lemma Neat.guarded (body : Neat tick true first) : Neat tick masked (guarded first) := by
  intro base saved held _ cold disciplined
  rw [Aarch64.IrqLocks.guarded, List.cons_append, List.append_assoc]
  exact body base (masked :: saved) held _ nofun ⟨masked, saved, rfl, cold, disciplined⟩

lemma neatTrap_composes : Composes NeatTrap where
  nil := fun _ _ _ disciplined => disciplined
  append := by
    intro _ _ left right base saved rest disciplined
    rw [List.append_assoc]
    exact left base saved _ (right base saved rest disciplined)

lemma NeatTrap.append (left : NeatTrap first) (right : NeatTrap second) :
    NeatTrap (first ++ second) :=
  neatTrap_composes.append left right

lemma Neat.trap (neat : Neat true true first) : NeatTrap first :=
  fun base saved rest disciplined => neat base saved [] rest nofun disciplined

lemma NeatTrap.swtch : NeatTrap [.swtch] := fun _ _ _ disciplined => ⟨⟨rfl, rfl⟩, disciplined⟩

end

/-! ## The code of the kernel -/

section

variable {tick masked : Bool}

lemma tableSection_neat (allowed : tick = true → masked = true) : Neat tick masked tableSection :=
  Neat.locked allowed Neat.nil

lemma tableSection_trap : Neat true true tableSection := tableSection_neat fun _ => rfl

lemma pageAllocs_neat (count : Nat) : Neat tick masked (pageAllocs count) :=
  (neat_composes tick masked).replicate count (Neat.locked nofun Neat.nil)

lemma tryInstall_neat (allowed : tick = true → masked = true) (slot : Option Nat) :
    Neat tick masked (tryInstall slot) := by
  refine Neat.locked allowed ?_
  cases slot with
  | none => exact Neat.nil
  | some => exact fun _ _ _ _ _ disciplined => disciplined

lemma withTimers_neat : Neat tick masked withTimers :=
    Neat.guarded (Neat.locked (fun _ => rfl) Neat.nil)

lemma timerStart_neat : Neat tick masked timerStart :=
    Neat.guarded (withTimers_neat.append withTimers_neat)

lemma interruptHandler_neat (starts : Nat) : Neat tick masked (interruptHandler starts) :=
  (withTimers_neat.append ((neat_composes tick masked).replicate starts timerStart_neat)).append
  withTimers_neat

lemma trySend_neat (allowed : tick = true → masked = true) (handle : Nat) (wakes : Bool) :
    Neat tick masked (trySend handle wakes) := by
  have channel : Neat tick masked (locked (.channel handle) []) := Neat.locked allowed Neat.nil
  exact channel.append (Neat.optional wakes (tableSection_neat allowed))

lemma channel_trap {body : List Act} (handle : Nat) (neat : Neat true true body) :
    Neat true true (locked (.channel handle) body) := Neat.locked (fun _ => rfl) neat

lemma switchOut_trap (switches : Bool) : NeatTrap (switchOut switches) :=
  tableSection_trap.trap.append (neatTrap_composes.optional switches NeatTrap.swtch)

lemma schedBlock_trap : NeatTrap schedBlock := tableSection_trap.trap.append (switchOut_trap true)

lemma schedBlockAt_trap : NeatTrap schedBlockAt :=
  tableSection_trap.trap.append (tableSection_trap.trap.append (switchOut_trap true))

lemma sendRound_trap (handle : Nat) (round : SendRound) : NeatTrap (round.acts handle) := by
  have table := tableSection_trap
  cases round with
  | closed => exact (channel_trap handle Neat.nil).trap
  | handed outranks =>
    have inner : Neat true true (currentId ++ effectivePriority ++ effectivePriority ++
        optional outranks (effectivePriority ++ boost)) :=
      ((table.append table).append table).append (Neat.optional outranks (table.append table))
    exact ((channel_trap handle inner).append table).trap
  | queued => exact ((channel_trap handle Neat.nil).append (channel_trap handle Neat.nil)).trap
  | blocked enqueued =>
    have record := channel_trap handle (Neat.optional (!enqueued) table)
    exact (record.append (channel_trap handle Neat.nil)).trap.append
      (table.trap.append schedBlock_trap)

lemma receiveRound_trap (handle : Nat) (round : ReceiveRound) : NeatTrap (round.acts handle) := by
  have table := tableSection_trap
  cases round with
  | refused => exact (table.append (channel_trap handle Neat.nil)).trap
  | message wakes =>
    exact (table.append ((channel_trap handle Neat.nil).append (Neat.optional wakes table))).trap
  | blocked bounded =>
    apply table.trap.append
    apply (channel_trap handle table).trap.append
    cases bounded
    · exact schedBlock_trap
    · exact schedBlockAt_trap

lemma closeAllFor_trap (channels : List Closing) : Neat true true (closeAllFor channels) := by
  have table := tableSection_trap
  apply (neat_composes true true).flatMap
  intro closing
  have look := channel_trap closing.handle Neat.nil
  exact look.append (Neat.optional _
    (look.append ((Neat.optional _ table).append (Neat.optional _ table))))

lemma syscall_trap (call : Syscall) : NeatTrap call.acts := by
  have table := tableSection_trap
  have ends : ∀ channels, NeatTrap (endCurrent channels) := fun channels =>
    table.trap.append ((Neat.guarded Neat.nil).trap.append
      ((closeAllFor_trap channels).trap.append (switchOut_trap true)))
  cases call with
  | yield switches => exact switchOut_trap switches
  | send handle rounds => exact neatTrap_composes.flatMap (sendRound_trap handle) rounds
  | receive handle rounds => exact neatTrap_composes.flatMap (receiveRound_trap handle) rounds
  | irqClaim =>
    apply table.trap.append
    exact fun _ _ _ disciplined => ⟨rfl, disciplined⟩
  | mapMmio pages => exact (pageAllocs_neat pages).trap
  | alloc pages => exact (Neat.locked (fun _ => rfl) (pageAllocs_neat pages)).trap
  | tableOnly => exact table.trap
  | spawn built =>
    have look : Neat true true (locked .registry []) := Neat.locked nofun Neat.nil
    apply look.trap.append
    match built with
    | none => exact Neat.nil.trap
    | some (pages, slot) =>
        exact ((pageAllocs_neat pages).append (tryInstall_neat (fun _ => rfl) slot)).trap
  | kill killed channels =>
      exact (table.append (Neat.optional killed (closeAllFor_trap channels))).trap
  | setPrio self => exact ((Neat.optional self table).append table).trap
  | exit channels | fault channels => exact ends channels
  | noLock => exact Neat.nil.trap

lemma runAll_disciplined (tick masked : Bool) : Disciplined [] tick masked [] [] (runAll tick) := by
  have table : Neat true true tableSection := tableSection_trap
  have final : Disciplined [] true true [masked] [] ([.swtch] ++ [.restore]) :=
    ⟨⟨rfl, rfl⟩, masked, [], rfl, fun _ => nofun, rfl, rfl⟩
  have switches := table.trap [] [masked] _ final
  cases tick with
  | true => exact switches
  | false => exact ⟨⟨rfl, rfl⟩, timerStart_neat [] [masked] [] _ nofun switches⟩

/-- The calls of the kernel that lock the process table or a channel, without a guard of their own.
-/
def unguarded : KernelCall → Bool
  | .timerStart => false
  | .runAll => false
  | .usePrivate _ => false
  | _ => true

lemma call_disciplined {call : KernelCall} (allowed : unguarded call = true → tick = true →
    masked = true) :
    Disciplined [] tick masked [] [] (call.acts tick) := by
  have whole : ∀ {acts}, Neat tick masked acts → Disciplined [] tick masked [] [] acts := by
    intro _ neat
    have ended := neat [] [] [] [] (fun _ => nofun) ⟨rfl, rfl⟩
    rw [List.append_nil] at ended
    exact ended
  cases call with
  | timerStart => exact whole timerStart_neat
  | runAll => exact runAll_disciplined tick masked
  | usePrivate lock =>
    apply whole
    refine Neat.locked ?_ Neat.nil
    cases lock <;> exact nofun
  | spawn pages => exact whole ((pageAllocs_neat pages).append (tryInstall_neat (allowed rfl) _))
  | trySend handle wakes | tryReceive handle wakes =>
    exact whole (trySend_neat (allowed rfl) handle wakes)
  | status | anyExited | setPriority | boost | unboost | effectivePriority =>
    exact whole (tableSection_neat (allowed rfl))

lemma irq_disciplined {core : Core} {source : IrqSource}
    (user : core.current.isSome = true → core.tick = true) :
    Disciplined [false] core.tick true [false] [] (irqActs core source) := by
  have ended : Disciplined [false] core.tick true [false] [] [] := ⟨rfl, rfl⟩
  have whole : ∀ {acts}, Neat core.tick true acts → Disciplined [false] core.tick true [false]
    [] acts := by
    intro _ neat
    have done := neat [false] [false] [] [] nofun ended
    rw [List.append_nil] at done
    exact done
  cases source with
  | spurious => exact ended
  | timer fired starts switches =>
    refine interruptHandler_neat starts [false] [false] [] _ nofun ?_
    cases fired with
    | false => exact ended
    | true =>
      refine tableSection_neat (fun _ => rfl) [false] [false] [] _ nofun ?_
      cases process : core.current.isSome with
      | false => exact ended
      | true =>
        have started := user process
        rw [started] at ended ⊢
        have done := switchOut_trap switches [false] [false] [] ended
        rw [List.append_nil] at done
        exact done
  | device _ wakes =>
    rw [irqActs]
    split
    · exact whole (trySend_neat (fun _ => rfl) _ wakes)
    · exact whole (Neat.guarded Neat.nil)

end

/-! ## The locks of the interrupt handler -/

def TakesHot (tick : Bool) (acts : List Act) : Prop :=
    ∀ lock, .acquire lock ∈ acts → hot tick lock = true

variable {tick : Bool} {acts : List Act}

lemma takesHot_composes (tick : Bool) : Composes (TakesHot tick) where
  nil := nofun
  append := by
    intro _ _ left right lock member
    rcases List.mem_append.mp member with member | member
    · exact left lock member
    · exact right lock member

lemma TakesHot.locked {lock : LockId} (taken : hot tick lock = true) (body : TakesHot tick acts) :
    TakesHot tick (locked lock acts) := by
  intro other member
  rcases List.mem_cons.mp member with same | member
  · cases same
    exact taken
  rcases List.mem_append.mp member with member | member
  · exact body other member
  · cases List.mem_singleton.mp member

lemma TakesHot.guarded (body : TakesHot tick acts) : TakesHot tick (guarded acts) := by
  intro other member
  rcases List.mem_cons.mp member with same | member
  · cases same
  rcases List.mem_append.mp member with member | member
  · exact body other member
  · cases List.mem_singleton.mp member

lemma irq_takesHot {core : Core} {source : IrqSource} (possible : source.possible core.tick = true)
    (routed : core.routes ≠ [] → core.tick = true) : TakesHot core.tick (irqActs core source) := by
  have composes := takesHot_composes core.tick
  have timers : TakesHot core.tick withTimers := (TakesHot.locked rfl composes.nil).guarded
  have starting : TakesHot core.tick timerStart := (composes.append timers timers).guarded
  cases source with
  | spurious => exact composes.nil
  | timer fired starts switches =>
    have handler : TakesHot core.tick (interruptHandler starts) :=
      composes.append (composes.append timers (composes.replicate starts starting)) timers
    apply composes.append handler
    cases fired with
    | false => exact composes.nil
    | true =>
      have started : core.tick = true := possible
      have table : TakesHot core.tick tableSection := TakesHot.locked started composes.nil
      have switch : TakesHot core.tick [.swtch] := by
        intro _ member
        cases List.mem_singleton.mp member
      exact composes.append table
        (composes.optional _ (composes.append table (composes.optional switches switch)))
  | device _ wakes =>
    rw [irqActs]
    split
    · rename_i handle found
      have started : core.tick = true := by
        apply routed
        intro empty
        rw [empty] at found
        cases found
      have table : TakesHot core.tick tableSection := TakesHot.locked started composes.nil
      have channel : TakesHot core.tick (Aarch64.IrqLocks.locked (.channel handle) []) :=
        TakesHot.locked started composes.nil
      exact composes.append channel (composes.optional wakes table)
    · exact TakesHot.guarded composes.nil

end R9x.Verif.LockDiscipline
