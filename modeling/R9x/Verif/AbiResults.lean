import R9x.Aarch64.Syscalls
import R9x.R9xStd.Calls
import R9x.Verif.Setprio

/-!
# What a process sees of a call

A wrapper of `r9x_std` tells its caller what the kernel's handler did.
-/

namespace R9x.Verif.AbiResults

open Abi Port.Ipc Aarch64 Aarch64.Vm R9xStd
open UInt64 (ofNat)
open Option (map_some map_map some.inj)
open Env (handlers)

/-! ## Calls, results and outcomes -/

/-- A call of a wrapper. -/
inductive StdCall where
  | allocPage
  | processWait (id deadline : UInt64)
  | waitAny (deadline : UInt64)
  | setPriority (target : UInt64) (prio : UInt8)
  | createChan
  | receive (deadline : Option UInt64) (handle buf len : UInt64)
  deriving DecidableEq

/-- What a wrapper returns. -/
inductive Result where
  | page (addresses : Option (UInt64 × UInt64))
  | waited (status : Except WaitError UInt64)
  | waitedAny (child : Except WaitError (UInt64 × UInt64))
  | priority (set : Except SetPrioError Unit)
  | handle (value : UInt64)
  | message (received : Received)

/-- What a handler did. -/
inductive Outcome where
  | mapped (va : Nat) (pa : PhysAddr)
  | unmapped
  | reaped (id : Nat) (status : UInt64)
  | noChild
  | badChild
  | prioritySet (id : Nat)
  | badTarget
  | badPriority
  | created (handle : Nat)
  | noSlot
  | received (opcode : UInt16) (count : Nat) (tag : UInt32)
  | badHandle
  | failed (err : IpcErr)
  | badVa
  | timedOut
  deriving DecidableEq

section

variable {n : Nat}

/-- The wrappers, on the kernel's handlers. -/
def wrapper (call : StdCall) (env : Env n) : Option Result :=
  match call with
  | .allocPage => (allocPage handlers env).map fun (result, _) => .page result
  | .processWait id deadline =>
    (processWait handlers id deadline env).map fun (result, _) => .waited result
  | .waitAny deadline => (waitAny handlers deadline env).map fun (result, _) => .waitedAny result
  | .setPriority target prio =>
    (setPriority handlers target prio env).map fun (result, _) => .priority result
  | .createChan => (createChan handlers env).map fun (result, _) => .handle result
  | .receive none handle buf len =>
    (receive handlers handle buf len env).map fun (result, _) => .message result
  | .receive (some deadline) handle buf len =>
    (receiveAt handlers handle buf len deadline env).map fun (result, _) => .message result

/-- The outcome of `sys_wait`. -/
def waitOutcome (table : Table n) (child : UInt64) : Outcome :=
  match table.sysWaitSlot child with
  | .ok slot => .reaped slot.val (((table slot).map Process.exitStatus).getD 0)
  | .error _ => if child = 0 then .noChild else .badChild

/-- The outcome of `sys_setprio`: the slot it works on, if there is a process in it. -/
def priorityOutcome (env : Env n) (target : UInt64) (prio : UInt8) : Outcome :=
  if prio = 255 then .badPriority
  else match Setprio.resolved env.table env.tpidr target with
    | some id => if (env.table.get id).isSome then .prioritySet id else .badTarget
    | none => .badTarget

/-- The outcome of the copy of a message to the caller's buffer. -/
def copyOutcome (msg : Message) (buf len : UInt64) (env : Env n) : Option Outcome :=
  (writeUser ⟨env.space.root, env.kernel⟩ buf.toNat (Env.payload msg len) env.phys).map
    fun (written, _) =>
      match written with
      | none => .badVa
      | some count => .received msg.opcode count msg.tag

/-- The call of a receive on its channel, by its deadline. -/
def receiving : Option UInt64 → Port.Ipc.Call
  | none => .receive
  | some deadline => .receiveAt deadline

/-- The outcome of `sys_receive` and `sys_receive_at`: with a deadline, a message of the reserved
opcode is taken and not copied. -/
def receiveOutcome (deadline : Option UInt64) (handle buf len : UInt64) (env : Env n) :
    Option Outcome :=
  match env.channel handle.toNat with
  | none => some .badHandle
  | some ch =>
    match env.receivePass (receiving deadline) ch with
    | none => none
    | some (.error err, _) => some (.failed err)
    | some (.ok msg, after) =>
      if (env.channels ch).queue.pop.1.isNone then some .timedOut
      else if deadline.isSome ∧ msg.opcode = receiveTimeout then
        some (.received msg.opcode 0 msg.tag)
      else copyOutcome msg buf len after

/-- What the handler of a call does, if it comes back from this state. -/
def outcome (call : StdCall) (env : Env n) : Option Outcome :=
  match call with
  | .allocPage => env.allocHeapPage.map fun (answer, _) =>
    match answer with
    | some (va, pa) => .mapped va pa
    | none => .unmapped
  | .processWait id _ => some (waitOutcome env.table id)
  | .waitAny _ => some (waitOutcome env.table 0)
  | .setPriority target prio => some (priorityOutcome env target prio)
  | .createChan => some (if env.nused < nchannels then .created env.nused else .noSlot)
  | .receive deadline handle buf len => receiveOutcome deadline handle buf len env

end

/-! ## What the caller sees -/

def waitCode : Outcome → UInt64
  | .reaped id _ => ofNat id
  | .noChild => waitTimeout
  | _ => waitBadId

/-- The registers that a receive leaves, but for a message of the reserved opcode. -/
def receiveRegisters : Outcome → UInt64 × UInt64 × UInt64
  | .received opcode count tag => (opcode.toUInt64, ofNat count, tag.toUInt64)
  | .badHandle => (errBadHandle, 0, 0)
  | .failed err => (Env.errCode err, 0, 0)
  | .badVa => (errBadVa, 0, 0)
  | _ => (receiveTimeout.toUInt64, 0, 0)

def view (deadline : Option UInt64) (outcome : Outcome) : Received :=
  match outcome with
  | .received opcode count tag =>
    if deadline.isSome ∧ opcode = receiveTimeout then ⟨receiveTimeout, 0, 0⟩
    else ⟨opcode, ofNat count, tag⟩
  | outcome => asReceived (receiveRegisters outcome)

def waitedAs (give : Except WaitError UInt64 → Result) (code : UInt64) : Result :=
  if code = waitBadId then give (.error .badId)
  else if code = waitTimeout then give (.error .timeout)
  else give (.ok code)

def asStatus (result : Except WaitError UInt64) : Result := .waited (result.map fun _ => 0)

def asChild (result : Except WaitError UInt64) : Result := .waitedAny (result.map fun id => (id, 0))

def seen (call : StdCall) (outcome : Outcome) : Result :=
  match call with
  | .allocPage =>
    match outcome with
    | .mapped va _ =>
      if ofNat va < pageSize then .page none else .page (some (ofNat va, 0))
    | _ => .page none
  | .processWait _ _ => waitedAs asStatus (waitCode outcome)
  | .waitAny _ => waitedAs asChild (waitCode outcome)
  | .setPriority _ _ =>
    match outcome with
    | .prioritySet _ => .priority (.ok ())
    | .badPriority => .priority (.error .badPrio)
    | _ => .priority (.error .badId)
  | .createChan =>
    match outcome with
    | .created handle => .handle (ofNat handle)
    | _ => .handle errNoSlot
  | .receive deadline _ _ _ => .message (view deadline outcome)

variable {n : Nat}

lemma sysWait_code (table : Table n) (child : UInt64) :
    (table.sysWait child).1.1 = waitCode (waitOutcome table child) := by
  unfold Table.sysWait waitOutcome Table.sysWaitSlot
  by_cases any : child = 0
  · simp only [if_pos any]
    cases table.position (Table.holds .exited) with
    | none | some slot => rfl
  simp only [if_neg any]
  by_cases bound : child.toNat < n
  · simp only [dif_pos bound]
    by_cases exited : Table.holds .exited (table ⟨child.toNat, bound⟩) = true
    · simp only [if_pos exited]
      rfl
    simp only [if_neg exited]
    rfl
  simp only [dif_neg bound]
  rfl

lemma sysSetprio_code (env : Env n) (target : UInt64) (prio : UInt8) :
    (env.table.sysSetprio env.tpidr target prio.toUInt64).1 =
      match priorityOutcome env target prio with
      | .prioritySet _ => 0
      | .badPriority => setprioBadPrio
      | _ => Table.setprioBadId := by
  unfold priorityOutcome
  by_cases idle : prio = 255
  · rw [if_pos idle, idle]
    rfl
  have other : prio.toUInt64 ≠ 255 := by
    intro same
    apply idle
    apply UInt8.toNat_inj.mp
    have level := congrArg UInt64.toNat same
    rwa [UInt8.toNat_toUInt64] at level
  rw [if_neg idle]
  cases found : Setprio.resolved env.table env.tpidr target with
  | none =>
    rw [Setprio.sysSetprio_missing other fun id same => nomatch found.symm.trans same]
  | some id =>
    cases held : env.table.get id with
    | none =>
      rw [Setprio.sysSetprio_missing other]
      · simp [held]
      · intro _ same
        rw [← some.inj (found.symm.trans same)]
        exact held
    | some =>
      rw [Setprio.sysSetprio_held other found held]
      simp [held]

lemma copyOutcome_view {msg : Message} {buf len : UInt64} {env : Env n} {deadline : Option UInt64}
    (plain : ¬ (deadline.isSome ∧ msg.opcode = receiveTimeout)) :
    ((env.giveMessage msg buf len).map fun (registers, _) => asReceived registers) =
      (copyOutcome msg buf len env).map (view deadline) := by
  unfold Env.giveMessage copyOutcome
  cases writeUser ⟨env.space.root, env.kernel⟩ buf.toNat (Env.payload msg len) env.phys with
  | none => rfl
  | some result =>
    obtain ⟨written, _⟩ := result
    cases written with
    | none => rfl
    | some => simp [view, plain, asReceived]

/-! ## One pass of a receive -/

def answer (env : Env n) (deadline : Option UInt64) (ch : Fin nchannels) :
    Option (Except IpcErr Message) :=
  if env.tpidr.isNone then none
  else if (env.channels ch).closed then some (.error .closed)
  else match (env.channels ch).queue.pop.1 with
    | some msg => some (.ok msg)
    | none => if deadline.any (· ≤ env.counter) then some (.ok timeoutMessage) else none

def verdict : Option (Except IpcErr Message) → Verdict
  | some (.ok msg) => .returned (.ok (some msg))
  | some (.error err) => .returned (.error err)
  | none => .blocked

lemma pass_receiving (deadline : Option UInt64) (me : ProcId) (sched : KernSched n)
    (inner : ChannelInner) :
    ∃ block, (receiving deadline).pass me sched inner =
      finishReceive block (receiveLocked deadline me sched inner) := by
  cases deadline with
  | none | some limit => exact ⟨_, rfl⟩

lemma pass_verdict {env : Env n} {me : Fin n} (on : env.tpidr = some me)
    (deadline : Option UInt64) (ch : Fin nchannels) :
    ((receiving deadline).pass me.val (KernSched.mk env.table env.counter)
      (env.channels ch)).verdict = verdict (answer env deadline ch) := by
  obtain ⟨_, pass⟩ := pass_receiving deadline me.val (KernSched.mk env.table env.counter)
    (env.channels ch)
  have present : ¬ env.tpidr.isNone = true := by simp [on]
  rw [pass, receiveLocked, answer, if_neg present]
  by_cases closed : (env.channels ch).closed = true
  · rw [if_pos closed, if_pos closed]
    rfl
  rw [if_neg closed, if_neg closed]
  cases popped : (env.channels ch).queue.pop with
  | mk first =>
    cases first with
    | some => rfl
    | none =>
      by_cases late : deadline.any (· ≤ env.counter) = true
      · have due : (deadline.any fun deadline =>
            IpcScheduler.now (KernSched.mk env.table env.counter) ≥ deadline) = true := late
        simp only [if_pos due, if_pos late]
        rfl
      have early : ¬ (deadline.any fun deadline =>
          IpcScheduler.now (KernSched.mk env.table env.counter) ≥ deadline) = true := late
      simp only [if_neg early, if_neg late]
      rfl

def passed (env : Env n) (deadline : Option UInt64) (ch : Fin nchannels) : Env n :=
  match env.tpidr with
  | none => env
  | some me =>
    let progress := (receiving deadline).pass me.val (KernSched.mk env.table env.counter)
      (env.channels ch)
    { env with
      table := progress.sched.table
      channels := Function.update env.channels ch progress.inner }

lemma receivePass_eq (env : Env n) (deadline : Option UInt64) (ch : Fin nchannels) :
    env.receivePass (receiving deadline) ch =
      (answer env deadline ch).map fun found => (found, passed env deadline ch) := by
  unfold Env.receivePass passed
  cases on : env.tpidr with
  | none => simp [answer, on]
  | some =>
    simp only [pass_verdict on deadline ch]
    cases answer env deadline ch with
    | none => rfl
    | some found => cases found <;> rfl

lemma copyOutcome_passed (msg : Message) (buf len : UInt64) (env : Env n)
    (deadline : Option UInt64) (ch : Fin nchannels) :
    copyOutcome msg buf len (passed env deadline ch) = copyOutcome msg buf len env := by
  unfold passed
  cases env.tpidr <;> rfl

/-- How a pass of a receive comes to its answer. -/
inductive AnswerCase (env : Env n) (deadline : Option UInt64) (ch : Fin nchannels) :
    Except IpcErr Message → Prop
  | closed (closed : (env.channels ch).closed = true) : AnswerCase env deadline ch (.error .closed)
  | next (msg : Message) (opened : (env.channels ch).closed = false)
    (popped : (env.channels ch).queue.pop.1 = some msg) : AnswerCase env deadline ch (.ok msg)
  | late (bounded : deadline.isSome) (popped : (env.channels ch).queue.pop.1 = none) :
    AnswerCase env deadline ch (.ok timeoutMessage)

lemma answer_case {env : Env n} {deadline : Option UInt64} {ch : Fin nchannels}
    {found : Except IpcErr Message} (returns : answer env deadline ch = some found) :
    AnswerCase env deadline ch found := by
  unfold answer at returns
  split at returns
  · cases returns
  split at returns
  · rename_i closed
    rw [← some.inj returns]
    exact .closed closed
  rename_i opened
  split at returns
  · rename_i msg popped
    rw [← some.inj returns]
    exact .next msg (Bool.eq_false_iff.mpr opened) popped
  rename_i popped
  split at returns
  · rename_i reached
    rw [← some.inj returns]
    refine .late ?_ popped
    cases deadline with
    | none => cases reached
    | some => rfl
  · cases returns

/-- `sys_receive` or `sys_receive_at`. -/
def handled (deadline : Option UInt64) (handle buf len : UInt64) (env : Env n) :
    Option ((UInt64 × UInt64 × UInt64) × Env n) :=
  match deadline with
  | none => env.sysReceive handle buf len
  | some limit => env.sysReceiveAt handle buf len limit

section

variable (deadline : Option UInt64) (handle buf len : UInt64) (env : Env n)
include deadline handle buf len env

lemma handled_eq : handled deadline handle buf len env =
      match env.channel handle.toNat with
      | none => some ((errBadHandle, 0, 0), env)
      | some ch =>
        match env.receivePass (receiving deadline) ch with
        | none => none
        | some (.ok msg, env) =>
          if deadline.isSome ∧ msg.opcode = receiveTimeout then
            some ((receiveTimeout.toUInt64, 0, 0), env)
          else env.giveMessage msg buf len
        | some (.error err, env) => some ((Env.errCode err, 0, 0), env) := by
  cases deadline with
  | none => rfl
  | some limit =>
    change env.sysReceiveAt handle buf len limit = _
    unfold Env.sysReceiveAt
    cases env.channel handle.toNat with
    | none => rfl
    | some ch =>
      dsimp only [receiving]
      cases env.receivePass (.receiveAt limit) ch with
      | none => rfl
      | some outcome =>
        cases outcome with
        | mk result =>
          cases result with
          | ok => simp only [Option.isSome_some, true_and]
          | error => rfl

lemma handled_view :
    ((handled deadline handle buf len env).map fun (registers, _) => asReceived registers) =
      (receiveOutcome deadline handle buf len env).map (view deadline) := by
  rw [handled_eq, receiveOutcome]
  cases env.channel handle.toNat with
  | none => rfl
  | some ch =>
    simp only [receivePass_eq]
    cases returns : answer env deadline ch with
    | none => rfl
    | some =>
      simp only [map_some]
      cases answer_case returns with
      | closed => rfl
      | next msg _ popped =>
        have filled : ¬ (env.channels ch).queue.pop.1.isNone = true := by simp [popped]
        simp only [if_neg filled]
        by_cases reserved : deadline.isSome ∧ msg.opcode = receiveTimeout
        · simp only [map_some, view, if_pos reserved]
          rfl
        rw [if_neg reserved, if_neg reserved]
        exact copyOutcome_view reserved
      | late bounded popped =>
        have drained : (env.channels ch).queue.pop.1.isNone = true := by simp [popped]
        have reserved : deadline.isSome ∧ timeoutMessage.opcode = receiveTimeout := ⟨bounded, rfl⟩
        simp only [if_pos drained, if_pos reserved]
        rfl

lemma receive_seen : wrapper (.receive deadline handle buf len) env =
      ((receiveOutcome deadline handle buf len env).map (view deadline)).map .message := by
  rw [← handled_view, map_map]
  cases deadline with
  | none =>
    simp only [wrapper, R9xStd.receive, sys_receive, map_map]
    rfl
  | some =>
    simp only [wrapper, R9xStd.receiveAt, sys_receiveAt, map_map]
    rfl

end

lemma wrapper_eq (call : StdCall) (env : Env n) : wrapper call env = (outcome call env).map
    (seen call) := by
  cases call with
  | allocPage =>
    simp only [wrapper, outcome, allocPage, sys_allocPage, handlers, Env.sysAllocPage, map_map]
    congr 1
    funext result
    obtain ⟨answer, _⟩ := result
    cases answer with
    | none => rfl
    | some =>
      simp only [Function.comp_apply, seen]
      split <;> rfl
  | processWait =>
    simp only [wrapper, outcome, processWait, sys_wait, handlers, map_some, sysWait_code,
      seen, waitedAs]
    split
    · rfl
    · split <;> rfl
  | waitAny =>
    simp only [wrapper, outcome, waitAny, sys_wait, handlers, map_some, sysWait_code,
      seen, waitedAs]
    split
    · rfl
    · split <;> rfl
  | setPriority target prio =>
    simp only [wrapper, outcome, setPriority, sys_setprio, handlers, map_some, sysSetprio_code]
    cases priorityOutcome env target prio <;> rfl
  | createChan =>
    simp only [wrapper, outcome, createChan, sys_createchan, handlers, map_some, Env.sysCreatechan,
      Env.tryCreate]
    by_cases room : env.nused < nchannels
    · rw [if_pos room, if_pos room]
      rfl
    rw [if_neg room, if_neg room]
    rfl
  | receive =>
    rw [receive_seen, map_map]
    rfl

end R9x.Verif.AbiResults
