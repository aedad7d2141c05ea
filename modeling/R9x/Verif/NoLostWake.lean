import R9x.Verif.Lifecycle
import R9x.Verif.WaiterSlots

/-!
# No wake-up is lost when every channel end has one process

With one blocking sender and one receiver per channel, every process Blocked on a channel is in the
channel's slot for its call, although slots may also hold processes that no longer wait.
-/

namespace R9x.Verif.KernelIpc

open Lib Lib.WaitSlots Port.Ipc
open ChannelInner (isBlockedOn)
open Function (update comp_apply update_self update_of_ne update_eq_self)

variable {n m : Nat} {kernel before after : Kernel n m} {handle : Fin m} {call : Call} {me : ProcId}

/-- Nobody is Blocked on a channel that could serve the call, or on a closed channel. -/
def NoLostWake (kernel : Kernel n m) : Prop :=
  ∀ id handle call, kernel.states id = some .blocked → kernel.conts id = some (handle, call) →
    (kernel.channels handle).closed = false ∧
    (call.receives = true → (kernel.channels handle).queue.len = 0) ∧
    (call.sends = true → (kernel.channels handle).queue.len = queueCap)

/-- Blocking sends on a channel are only made by its sender, and receives by its receiver. -/
def OneProcessPerEnd (sender receiver : Fin m → ProcId) (kernel : Kernel n m) : Event n m → Prop
  | .ipc (.call handle call) =>
    (call.sends = true → kernel.current = some (sender handle)) ∧
      (call.receives = true → kernel.current = some (receiver handle))
  | _ => True

instance (sender receiver : Fin m → ProcId) (kernel : Kernel n m) :
    (event : Event n m) → Decidable (OneProcessPerEnd sender receiver kernel event)
  | .ipc (.call handle call) => inferInstanceAs (Decidable
    ((call.sends = true → kernel.current = some (sender handle)) ∧
      (call.receives = true → kernel.current = some (receiver handle))))
  | .ipc (.switch _) | .ipc .resume | .ipc (.interrupt _ _) | .ipc (.clock _) | .ipc .tick
  | .exit _ | .fault | .kill _ | .spawn _ _ | .wait _ | .setprio _ _ => .isTrue trivial

/-- The invariant: every waiting process is in the slot of its call on an open channel, and calls in
progress are made by the process of their channel end. -/
structure Covered (sender receiver : Fin m → ProcId) (kernel : Kernel n m) : Prop where
  regular : Regular kernel
  recv : Covers kernel.recvSlots kernel.waiting Call.receives
  send : Covers kernel.sendSlots kernel.waiting Call.sends
  kinds : ∀ id handle call, kernel.waiting id = some (handle, call) → call.receives = true ∨
    call.sends = true
  ends : ∀ id handle call, kernel.conts id = some (handle, call) →
    (call.sends = true → id = sender handle) ∧ (call.receives = true → id = receiver handle)

variable {sender receiver : Fin m → ProcId} {id : ProcId}

lemma Covered.recorded (covered : Covered sender receiver kernel)
    (waits : kernel.waiting id = some (handle, call)) :
    (kernel.channels handle).isBlockedOn id = true := by
  rcases covered.kinds id handle call waits with receives | sends
  · have slot : (kernel.channels handle).recvWaiter = some id :=
      covered.recv handle id ⟨call, waits, receives⟩
    simp [isBlockedOn, slot]
  have slot : (kernel.channels handle).sendWaiter = some id :=
    covered.send handle id ⟨call, waits, sends⟩
  simp [isBlockedOn, slot]

lemma Covered.noLostWake (covered : Covered sender receiver kernel) : NoLostWake kernel := by
  intro id handle call blocked inside
  have waits : kernel.waiting id = some (handle, call) := by
    rw [Kernel.waiting, if_pos blocked, inside]
  have sound := covered.regular.sound handle
  refine ⟨?_, fun receives => ?_, fun sends => ?_⟩
  · by_contra shut
    obtain ⟨noReceiver, noSender⟩ := sound.closedFree (Bool.not_eq_false _ ▸ shut)
    have recorded := covered.recorded waits
    simp [isBlockedOn, noReceiver, noSender] at recorded
  · exact sound.recvEmpty id (covered.recv handle id ⟨call, waits, receives⟩)
  · exact sound.sendFull id (covered.send handle id ⟨call, waits, sends⟩)

lemma Kernel.conts_of_waiting {pending : Fin m × Call} (waits : kernel.waiting id = some pending) :
    kernel.conts id = some pending := by
  unfold Kernel.waiting at waits
  split at waits
  · exact waits
  · contradiction

lemma Covered.fewer (covered : Covered sender receiver before)
    (regular : Regular after) (gone : ProcId → Prop) [DecidablePred gone]
    (waiting : after.waiting = fun id => if gone id then none else before.waiting id)
    (recv : ∀ handle id, before.recvSlots handle = some id → ¬ gone id → after.recvSlots handle =
      some id)
    (send : ∀ handle id, before.sendSlots handle = some id → ¬ gone id → after.sendSlots handle =
      some id)
    (conts : ∀ id, after.conts id = before.conts id ∨ after.conts id = none) :
    Covered sender receiver after := by
  refine ⟨regular, covered.recv.remove waiting recv, covered.send.remove waiting send,
    fun id handle call waits => ?_, fun id handle call inside => ?_⟩
  · rw [waiting] at waits
    by_cases left : gone id
    · simp [left] at waits
    simp only [left, ↓reduceIte] at waits
    exact covered.kinds id handle call waits
  · rcases conts id with kept | dropped
    · rw [kept] at inside
      exact covered.ends id handle call inside
    · rw [dropped] at inside
      contradiction

lemma Covered.returned (covered : Covered sender receiver before) (regular : Regular after)
    {answer : Answer} {wakes : List ProcId} {inner : ChannelInner}
    (ran : PassCase call me before.sched.counter (before.channels handle) (.returned answer)
      wakes inner)
    (channels : after.channels = update before.channels handle inner)
    (waiting : after.waiting = fun id => if id ∈ wakes then none else before.waiting id)
    (conts : ∀ id, after.conts id = before.conts id ∨ after.conts id = none) :
    Covered sender receiver after := by
  have slots := PassCase.returned_slots (covered.regular.sound handle) ran
  refine covered.fewer regular (· ∈ wakes) waiting (fun other id recorded stays => ?_)
    (fun other id recorded stays => ?_) conts
  · rw [Kernel.recvSlots, comp_apply, channels]
    by_cases same : other = handle
    · subst same
      rw [update_self]
      exact (slots id).1.mpr ⟨recorded, stays⟩
    · rwa [update_of_ne same]
  · rw [Kernel.sendSlots, comp_apply, channels]
    by_cases same : other = handle
    · subst same
      rw [update_self]
      exact (slots id).2.mpr ⟨recorded, stays⟩
    · rwa [update_of_ne same]

variable {slot slot' : Fin m → Option ProcId} {waiting' : ProcId → Option (Fin m × Call)}
    {kind : Call → Bool} {blocks : Prop}

lemma covers_recorded (covers : Covers slot before.waiting kind)
    (only : ∀ id, WaitsIn before.waiting kind id handle → id = me) (idle : before.waiting me = none)
    [Decidable blocks] (waiting : waiting' =
      update before.waiting me (if blocks then some (handle, call) else none))
    (slots : slot' = update slot handle (some me)) : Covers slot' waiting' kind := by
  by_cases sleeping : blocks
  · rw [if_pos sleeping] at waiting
    exact covers.record only waiting slots
  rw [if_neg sleeping, ← idle, update_eq_self] at waiting
  rw [waiting]
  refine covers.overwrite (fun id waits => ?_) slots
  obtain rfl := only id waits
  exact not_waitsIn idle handle waits

lemma covers_ignored (covers : Covers slot before.waiting kind) (other : kind call = false)
    (idle : before.waiting me = none) [Decidable blocks]
    (waiting : waiting' = update before.waiting me
      (if blocks then some (handle, call) else none)) (slots : slot' = slot) :
    Covers slot' waiting' kind := by
  by_cases sleeping : blocks
  · rw [if_pos sleeping] at waiting
    exact covers.ignore other waiting slots
  rw [if_neg sleeping, ← idle, update_eq_self] at waiting
  rw [waiting, slots]
  exact covers

section

variable (covered : Covered sender receiver before)
include covered

/-- A pass by the process of the channel end keeps the invariant. -/
lemma Covered.performed (on : before.current = some me)
    (mine : (call.sends = true → me = sender handle) ∧
      (call.receives = true → me = receiver handle))
    (performed : Performed before me handle call after) : Covered sender receiver after := by
  have regular := performed.regular covered.regular on
  have awake := covered.regular.awake me on
  have idle := covered.regular.waiting_current on
  cases performed with
  | returned _ _ _ _ ran channels states conts =>
    refine covered.returned regular ran channels (Performed.waiting_returned awake states conts)
      fun id => ?_
    rw [conts]
    by_cases same : id = me
    · subst same
      exact .inr (update_self ..)
    · exact .inl (update_of_ne same ..)
  | blocked wakes inner pass ran channels states conts =>
    have waiting := Performed.waiting_blocked awake states conts
    obtain ⟨recvSlots, sendSlots⟩ := slots_update channels
    have blocking : call.receives = true ∨ call.sends = true := by
      cases ran with
      | full sends => exact .inr sends
      | empty receives => exact .inl receives
    have ends : ∀ id other pending, after.conts id = some (other, pending) →
        (pending.sends = true → id = sender other) ∧
        (pending.receives = true → id = receiver other) := by
      intro id other pending inside
      rw [conts] at inside
      by_cases same : id = me
      · subst same
        rw [update_self] at inside
        cases inside
        exact mine
      rw [update_of_ne same] at inside
      exact covered.ends id other pending inside
    have kinds : ∀ id other pending, after.waiting id = some (other, pending) →
        pending.receives = true ∨ pending.sends = true := by
      intro id other pending waits
      rw [waiting] at waits
      by_cases same : id = me
      · subst same
        rw [update_self] at waits
        split at waits
        · cases waits
          exact blocking
        · contradiction
      rw [update_of_ne same] at waits
      exact covered.kinds id other pending waits
    cases ran with
    | full sends =>
      refine ⟨regular, ?_, ?_, kinds, ends⟩
      · exact covers_ignored covered.recv (sends_not_receives sends) idle waiting
          (recvSlots.trans (update_eq_self handle before.recvSlots))
      · refine covers_recorded covered.send (fun id waits => ?_) idle waiting sendSlots
        obtain ⟨pending, waits, sends'⟩ := waits
        have owner := (covered.ends id handle pending (Kernel.conts_of_waiting waits)).1 sends'
        exact owner.trans (mine.1 sends).symm
    | empty receives =>
      refine ⟨regular, ?_, ?_, kinds, ends⟩
      · refine covers_recorded covered.recv (fun id waits => ?_) idle waiting recvSlots
        obtain ⟨pending, waits, receives'⟩ := waits
        have owner := (covered.ends id handle pending (Kernel.conts_of_waiting waits)).2 receives'
        exact owner.trans (mine.2 receives).symm
      · exact covers_ignored covered.send (receives_not_sends receives) idle waiting
          (sendSlots.trans (update_eq_self handle before.sendSlots))

lemma Covered.same (regular : Regular after)
    (waiting : after.waiting = before.waiting) (channels : after.channels = before.channels)
    (conts : ∀ id, after.conts id = before.conts id ∨ after.conts id = none) :
    Covered sender receiver after := by
  refine covered.fewer regular (fun _ => False) (by simpa using waiting)
    (fun handle id recorded _ => ?_) (fun handle id recorded _ => ?_) conts
  · rwa [Kernel.recvSlots, channels]
  · rwa [Kernel.sendSlots, channels]

lemma Covered.died (regular : Regular after) (died : Died before id after) :
    Covered sender receiver after := by
  have unaffected : ∀ handle other, (before.channels handle).isBlockedOn other = true →
      ¬ (other = id ∨ SharesChannel before id other) →
      after.channels handle = before.channels handle := by
    intro handle _ recorded stays
    rw [died.channels, if_neg]
    exact fun shared => stays (.inr ⟨handle, shared, recorded⟩)
  refine covered.fewer regular (fun other => other = id ∨ SharesChannel before id other)
    died.waiting
    (fun handle other recorded stays => ?_) (fun handle other recorded stays => ?_) fun other =>
    .inl (congrFun died.conts other)
  · have here : (before.channels handle).recvWaiter = some other := recorded
    rw [Kernel.recvSlots, comp_apply, unaffected handle other (by simp [isBlockedOn, here]) stays]
    exact here
  · have here : (before.channels handle).sendWaiter = some other := recorded
    rw [Kernel.sendSlots, comp_apply, unaffected handle other (by simp [isBlockedOn, here]) stays]
    exact here

end

lemma step_covered (before : Kernel n m) (event : Event n m) (after : Kernel n m)
    (covered : Covered sender receiver before)
    (owned : OneProcessPerEnd sender receiver before event)
    (taken : step before event = some after) : Covered sender receiver after := by
  have ran := step_case covered.regular.sound taken
  have regular := ran.regular covered.regular
  cases ran with
  | ipc _ after ran =>
    cases ran with
    | switch _ _ runnable states _ channels conts =>
      exact covered.same regular (waiting_switch runnable states conts) channels fun id =>
        .inl (congrFun conts id)
    | call _ _ _ _ current _ performed =>
      obtain ⟨sends, receives⟩ := owned
      rw [current] at sends receives
      exact covered.performed current ⟨fun kind => Option.some.inj (sends kind),
        fun kind => Option.some.inj (receives kind)⟩ performed
    | resume me handle call _ current inside performed =>
      exact covered.performed current (covered.ends me handle call inside) performed
    | interrupt _ _ _ _ _ _ _ _ ran channels states conts =>
      exact covered.returned regular ran channels
        (waiting_woken states fun id _ => congrFun conts id) fun id => .inl (congrFun conts id)
    | clock => exact covered.same regular rfl rfl fun _ => .inl rfl
    | tick _ states channels conts =>
      refine covered.fewer regular (fun id => before.expired id = true) (waiting_tick states conts)
        (fun handle id recorded _ => ?_) (fun handle id recorded _ => ?_)
        fun id => .inl (congrFun conts id)
      · rwa [Kernel.recvSlots, channels]
      · rwa [Kernel.sendSlots, channels]
  | exit status me id after on outside running died | fault me after on outside running died
  | kill _ _ _ _ _ died => exact covered.died regular died
  | missed => exact covered
  | spawn slot _ _ free states conts channels =>
    have unblocked := not_blocked_of_free free
    refine covered.same regular (waiting_same (fun id => ?_) fun id blocked => ?_) channels
      fun id => ?_
    · rw [states, blocked_update unblocked (by simp)]
    · rw [conts, update_of_ne]
      rintro rfl
      exact unblocked blocked
    · rw [conts]
      by_cases same : id = slot.val
      · exact .inr (by rw [same, update_self])
      · exact .inl (update_of_ne same ..)
  | wait _ _ exited states conts channels =>
    refine covered.same regular (waiting_same (fun id => ?_) fun id _ => congrFun conts id) channels
      fun id => .inl (congrFun conts id)
    rw [states, blocked_update (by simp [exited]) (by simp)]
  | setprio id _ _ states conts channels =>
    exact covered.same regular (waiting_same (fun id => by rw [states]) fun id _ =>
      congrFun conts id)
      channels fun id => .inl (congrFun conts id)

lemma Fresh.covered (fresh : Fresh kernel) : Covered sender receiver kernel := by
  have waiting : ∀ id, kernel.waiting id = none := fun id => if_neg (fresh.unblocked id).1
  refine ⟨fresh.exact.regular, fun handle id waits => ?_, fun handle id waits => ?_,
    fun id handle call waits => ?_, fun id handle call inside => ?_⟩
  · exact absurd waits (not_waitsIn (waiting id) handle)
  · exact absurd waits (not_waitsIn (waiting id) handle)
  · rw [waiting id] at waits
    contradiction
  · rw [fresh.outside id] at inside
    contradiction

/-- In every run in which each channel has one process that sends on it by blocking `send` and one
that receives on it, with deaths, spawns and ticks in between, no process is ever Blocked in a
receive on an open channel with a queued message, Blocked in a `send` on one with room, or Blocked
on a closed channel. -/
theorem no_lost_wake (sender receiver : Fin m → ProcId) {kernel final : Kernel n m}
    (fresh : Fresh kernel) (events : List (Event n m))
    (owned : Along step (OneProcessPerEnd sender receiver) kernel events)
    (reached : run step kernel events = some final) : NoLostWake final :=
  (run_invariant_along step_covered fresh.covered owned reached).noLostWake

def receiveAfterTimeout : List (Event 1 1) :=
  (timeoutRun.map .ipc) ++ [.ipc (.switch 0), .ipc .resume, .ipc (.call 0 .receive)]

/-- The run exists, and the process that ends it Blocked is not lost. -/
theorem no_lost_wake_after_timeout :
    ∃ final, run step oneProcess receiveAfterTimeout = some final ∧ NoLostWake final := by
  obtain ⟨final, reached⟩ : ∃ final, run step oneProcess receiveAfterTimeout = some final :=
    ⟨_, rfl⟩
  exact ⟨final, reached, no_lost_wake (fun _ => 0) (fun _ => 0) oneProcess_fresh
    receiveAfterTimeout (by decide) reached⟩

end R9x.Verif.KernelIpc
