import R9x.Verif.AbiResults
import R9x.Verif.HeapRuns

/-!
# What a process learns from a call

A call is right if its result has the values of the handler's outcome, the outcome is about the
process that the caller means, and no outcome of the call in another state of the kernel gives the
same result.
-/

namespace R9x.Verif.AbiCalls

open Lib Abi Port.Ipc Aarch64 Aarch64.Vm R9xStd AbiResults
open Table (holds sysWaitSlot)
open UInt64 (ofNat ofBitVec toNat toNat_ofNat')
open Env (payload channel)
open Message (new)
open HeapRuns.Machine (emptyProcess)
open Option (some.inj map_some)

/-! ## Determines calls -/

/-- The values of an outcome, as the wrapper's result has them. -/
def report (call : StdCall) (outcome : Outcome) : Result :=
  match call with
  | .allocPage =>
    match outcome with
    | .mapped va pa => .page (some (ofNat va, ofBitVec pa))
    | _ => .page none
  | .processWait _ _ =>
    match outcome with
    | .reaped _ status => .waited (.ok status)
    | .noChild => .waited (.error .timeout)
    | _ => .waited (.error .badId)
  | .waitAny _ =>
    match outcome with
    | .reaped id status => .waitedAny (.ok (ofNat id, status))
    | .noChild => .waitedAny (.error .timeout)
    | _ => .waitedAny (.error .badId)
  | .setPriority _ _ =>
    match outcome with
    | .prioritySet _ => .priority (.ok ())
    | .badPriority => .priority (.error .badPrio)
    | _ => .priority (.error .badId)
  | .createChan =>
    match outcome with
    | .created handle => .handle (ofNat handle)
    | _ => .handle errNoSlot
  | .receive _ _ _ _ =>
    match outcome with
    | .received opcode count tag => .message ⟨opcode, ofNat count, tag⟩
    | outcome => .message (asReceived (receiveRegisters outcome))

section

variable {n newBrk : Nat} {env : Env n} {did : Outcome} {child handle buf len : UInt64}
  {deadline : Option UInt64} {msg : Message}

/-- A state in which a process makes a call: the caller is in the table, and its heap is above the
first page. -/
structure Live (env : Env n) : Prop where
  caller : ∃ me, env.tpidr = some me ∧ (env.table me).isSome
  placed : pageSize4K ≤ env.space.heapBrk

/-- The slot that the target of a priority means: `r9x_std` has 0 for the caller and the kernel has
`u64::MAX`. -/
def meant (env : Env n) (target : UInt64) : Option Nat :=
  if target = 0 ∨ target = ofNat (2 ^ 64 - 1) then env.tpidr.map Fin.val
  else some target.toNat

/-- The outcome is about the process that the target means. -/
def Aimed (env : Env n) : StdCall → Outcome → Prop
  | .setPriority target _, .prioritySet id => meant env target = some id
  | .setPriority target _, .badTarget => ∀ id, meant env target = some id → env.table.get id = none
  | _, _ => True

def Possible (call : StdCall) (env : Env n) (found : Outcome) : Prop :=
  ∃ other : Env n, Live other ∧ other.tpidr = env.tpidr ∧ outcome call other = some found

/-- The result of a call determines its outcome. -/
structure Determines (call : StdCall) (env : Env n) (did : Outcome) : Prop where
  values : wrapper call env = some (report call did)
  aimed : Aimed env call did
  determined : ∀ (other : Env n) (found : Outcome), Live other → other.tpidr = env.tpidr →
    outcome call other = some found → wrapper call other = wrapper call env → found = did

/-- A message whose result is that of an error. -/
def LooksFailed (msg : Message) (len : UInt64) : Prop :=
  msg.tag = 0 ∧ payload msg len = [] ∧ (msg.opcode = 1 ∨ msg.opcode = 2 ∨ msg.opcode = 10 ∧ len ≠ 0)

/-- The next message of the channel can be told from everything else. -/
structure Plain (deadline : Option UInt64) (ch : Fin nchannels) (buf len : UInt64) (env : Env n)
    (msg : Message) : Prop where
  opened : (env.channels ch).closed = false
  next : (env.channels ch).queue.pop.1 = some msg
  writable : payload msg len = [] ∨
    userRangeOk ⟨env.space.root, env.kernel⟩ env.phys.mem buf.toNat (payload msg len).length
      true = some true
  unreserved : ¬ (deadline.isSome ∧ msg.opcode = receiveTimeout)
  clear : ¬ LooksFailed msg len

/-- The condition under which a call is right. -/
def Meets (call : StdCall) (env : Env n) : Prop :=
  match call with
  | .allocPage =>
    brkGrow env.space.heapBrk pageSize4K kzero = none ∨
      ∃ err phys, Aspace.mapUserDataPagePa ⟨env.space.root, env.kernel⟩ env.space.root
        (BitVec.ofNat 64 env.space.heapHwm) env.phys = some (.error err, phys)
  | .processWait id _ =>
    ∀ slot : Fin n, id = 0 ∨ id.toNat = slot.val → holds .exited (env.table slot) = false
  | .waitAny _ => ∀ slot : Fin n, holds .exited (env.table slot) = false
  | .setPriority target prio => prio = 255 ∨ target ≠ 0 ∨ env.tpidr.map Fin.val = some 0
  | .createChan => env.nused < nchannels ∧ env.nused ≠ 8
  | .receive deadline handle buf len =>
    nchannels ≤ handle.toNat ∨
      ∃ ch msg, env.channel handle.toNat = some ch ∧ Plain deadline ch buf len env msg

lemma right_iff {call : StdCall} (does : outcome call env = some did) :
    Determines call env did ↔ seen call did = report call did ∧ Aimed env call did ∧
      ∀ found, Possible call env found → seen call found = seen call did → found = did := by
  constructor
  · intro right
    refine ⟨?_, right.aimed, ?_⟩
    · have values := right.values
      rw [wrapper_eq, does] at values
      exact some.inj values
    · rintro found ⟨other, live, same, finds⟩ looks
      apply right.determined other found live same finds
      rw [wrapper_eq, wrapper_eq, finds, does, map_some, map_some, looks]
  · rintro ⟨values, aimed, determined⟩
    refine ⟨?_, aimed, ?_⟩
    · rw [wrapper_eq, does, map_some, values]
    · intro other found live same finds looks
      rw [wrapper_eq, wrapper_eq, finds, does] at looks
      exact determined found ⟨other, live, same, finds⟩ (some.inj looks)

/-! ## `alloc_page` -/

lemma allocPage_outcome (live : Live env) : outcome .allocPage env =
      (heapAllocPage env.kernel env.space env.phys).map fun result =>
        match result.answer with
        | some (va, pa) => .mapped va pa
        | none => .unmapped := by
  obtain ⟨_, on, held⟩ := live.caller
  obtain ⟨_, held⟩ := Option.isSome_iff_exists.mp held
  simp only [outcome, Env.allocHeapPage, on, held, Option.isNone_some, Bool.false_eq_true, if_false,
    Option.map_map]
  rfl

def pageReady (env : Env n) : Env n :=
  { env with
    space := ⟨0, 0x200000, env.space.heapBrk, 0x200000⟩
    kernel := 100
    phys := emptyProcess.phys }

lemma pageReady_outcome (live : Live env)
    (grown : brkGrow env.space.heapBrk pageSize4K kzero = some newBrk) :
    ∃ pa, outcome .allocPage (pageReady env) = some (.mapped env.space.heapBrk pa) ∧ pa ≠ 0 := by
  have maps : ((Aspace.mapUserDataPagePa ⟨0, 100⟩ 0 (BitVec.ofNat 64 0x200000)
      emptyProcess.phys).map fun (result, _) => result.toOption) = some (some 0x1000) := by
    decide +kernel
  obtain ⟨⟨result, _⟩, mapped, given⟩ := Option.map_eq_some_iff.mp maps
  cases result with
  | error => cases given
  | ok pa =>
    refine ⟨pa, ?_, ?_⟩
    · have ready : Live (pageReady env) := ⟨live.caller, live.placed⟩
      rw [allocPage_outcome ready, heapAllocPage]
      simp only [pageReady, grown, mapped]
      rfl
    · rw [some.inj given]
      decide

/-- What a page call of a live process does. -/
inductive PageCase (env : Env n) (did : Outcome) : Prop
  | refused (nothing : did = .unmapped) (meets : Meets .allocPage env)
  | granted (newBrk : Nat) (pa : PhysAddr) (phys : Phys)
    (grown : brkGrow env.space.heapBrk pageSize4K kzero = some newBrk)
    (mapped : Aspace.mapUserDataPagePa ⟨env.space.root, env.kernel⟩ env.space.root
      (BitVec.ofNat 64 env.space.heapHwm) env.phys = some (.ok pa, phys))
    (page : did = .mapped env.space.heapBrk pa)

lemma allocPage_case (live : Live env) (does : outcome .allocPage env = some did) :
    PageCase env did := by
  rw [allocPage_outcome live, heapAllocPage] at does
  cases grown : brkGrow env.space.heapBrk pageSize4K kzero with
  | none =>
    rw [grown] at does
    exact .refused (some.inj does).symm (.inl grown)
  | some newBrk =>
    simp only [grown] at does
    cases mapped : Aspace.mapUserDataPagePa ⟨env.space.root, env.kernel⟩ env.space.root
        (BitVec.ofNat 64 env.space.heapHwm) env.phys with
    | none =>
      rw [mapped] at does
      cases does
    | some result =>
      obtain ⟨result, phys⟩ := result
      rw [mapped] at does
      cases result with
      | error err => exact .refused (some.inj does).symm (.inr ⟨err, phys, mapped⟩)
      | ok pa => exact .granted newBrk pa phys grown mapped (some.inj does).symm

lemma not_meets_allocPage {pa : PhysAddr} {phys : Phys}
    (grown : brkGrow env.space.heapBrk pageSize4K kzero = some newBrk)
    (mapped : Aspace.mapUserDataPagePa ⟨env.space.root, env.kernel⟩ env.space.root
      (BitVec.ofNat 64 env.space.heapHwm) env.phys = some (.ok pa, phys)) :
    ¬ Meets .allocPage env := by
  rintro (full | ⟨err, after, failed⟩)
  · cases grown.symm.trans full
  · cases mapped.symm.trans failed

lemma seen_mapped (live : Live env)
    (grown : brkGrow env.space.heapBrk pageSize4K kzero = some newBrk) (pa : PhysAddr) :
    seen .allocPage (.mapped env.space.heapBrk pa) = .page (some (ofNat env.space.heapBrk, 0)) := by
  have placed := live.placed
  have bounds := HeapRuns.brkGrow_some grown
  have above : ¬ ofNat env.space.heapBrk < pageSize := by
    rw [UInt64.lt_iff_toNat_lt, toNat_ofNat']
    change ¬ _ < 4096
    rw [pageSize4K] at placed
    rw [kzero] at bounds
    omega
  simp only [seen, if_neg above]

lemma allocPage_right (live : Live env) (does : outcome .allocPage env = some did) :
    Determines .allocPage env did ↔ Meets .allocPage env := by
  rw [right_iff does]
  cases allocPage_case live does with
  | refused nothing meets =>
    rw [nothing]
    refine iff_of_true ⟨rfl, trivial, ?_⟩ meets
    rintro _ ⟨_, alive, -, finds⟩ looks
    cases allocPage_case alive finds with
    | refused nothing => exact nothing
    | granted _ _ _ grown _ page =>
      rw [page, seen_mapped alive grown] at looks
      cases looks
  | granted _ pa _ grown mapped page =>
    rw [page]
    refine iff_of_false ?_ (not_meets_allocPage grown mapped)
    rintro ⟨values, -, determined⟩
    obtain ⟨other, finds, nonzero⟩ := pageReady_outcome live grown
    have ready : Live (pageReady env) := ⟨live.caller, live.placed⟩
    have same := determined _ ⟨pageReady env, ready, rfl, finds⟩
      ((seen_mapped live grown other).trans (seen_mapped live grown pa).symm)
    rw [seen_mapped live grown] at values
    injection values with addresses
    injection addresses with pair
    have zero : (0 : UInt64) = ofBitVec pa := (Prod.mk.inj pair).2
    apply nonzero
    rw [(Outcome.mapped.inj same).2]
    exact (congrArg UInt64.toBitVec zero).symm

/-! ## `ProcessId::wait` and `wait_any` -/

def otherStatus (table : Table n) : Table n :=
  fun slot =>
  (table slot).map fun process => { process with exitStatus := process.exitStatus + 1 }

lemma holds_otherStatus (table : Table n) (state : State) (slot : Fin n) :
    holds state (otherStatus table slot) = holds state (table slot) := by
  unfold otherStatus
  cases table slot <;> rfl

lemma sysWaitSlot_otherStatus (table : Table n) (child : UInt64) :
    (otherStatus table).sysWaitSlot child = table.sysWaitSlot child := by
  simp only [sysWaitSlot, Table.position, holds_otherStatus]

def refusal (child : UInt64) : Outcome := if child = 0 then .noChild else .badChild

/-- What a wait does. -/
inductive WaitCase (table : Table n) (child : UInt64) : Prop
  | reaps (slot : Fin n) (status : UInt64) (named : child = 0 ∨ child.toNat = slot.val)
    (exited : holds .exited (table slot) = true)
    (reaped : waitOutcome table child = .reaped slot.val status)
    (other : waitOutcome (otherStatus table) child = .reaped slot.val (status + 1))
  | refuses (refused : waitOutcome table child = refusal child)
    (unexited : ∀ slot : Fin n, child = 0 ∨ child.toNat = slot.val → holds .exited (table slot) =
      false)

variable {table : Table n} {code : UInt64}

lemma sysWaitSlot_error (missing : table.sysWaitSlot child = .error code)
    (slot : Fin n) (named : child = 0 ∨ child.toNat = slot.val) :
    holds .exited (table slot) = false := by
  rw [sysWaitSlot] at missing
  by_cases any : child = 0
  · rw [if_pos any] at missing
    split at missing
    · cases missing
    rename_i search
    exact Table.position_none search slot
  have here : child.toNat = slot.val := named.resolve_left any
  have bound : child.toNat < n := here ▸ slot.isLt
  have same : (⟨child.toNat, bound⟩ : Fin n) = slot := Fin.ext here
  rw [if_neg any, dif_pos bound, same] at missing
  split at missing
  · cases missing
  rename_i unexited
  exact Bool.eq_false_iff.mpr unexited

lemma waitOutcome_case (table : Table n) (child : UInt64) : WaitCase table child := by
  cases found : table.sysWaitSlot child with
  | error =>
    refine .refuses ?_ (sysWaitSlot_error found)
    rw [waitOutcome, found, refusal]
  | ok slot =>
    obtain ⟨exited, -, named⟩ := Table.sysWaitSlot_ok found
    cases held : table slot with
    | none =>
      rw [held] at exited
      cases exited
    | some process =>
      refine .reaps slot process.exitStatus (or_iff_not_imp_left.mpr named) exited ?_ ?_
      · simp [waitOutcome, found, held]
      · simp [waitOutcome, sysWaitSlot_otherStatus, found, otherStatus, held]

lemma refused_of_code (bound : n ≤ 0xfffffffe) (table : Table n) (child : UInt64)
    (same : waitCode (waitOutcome table child) = waitCode (refusal child)) :
    waitOutcome table child = refusal child := by
  cases waitOutcome_case table child with
  | refuses refused => exact refused
  | reaps slot _ _ _ reaped =>
    obtain ⟨notBad, notLate⟩ := Table.slot_code bound slot
    rw [reaped, refusal] at same
    split at same
    · exact absurd same notLate
    · exact absurd same notBad

lemma Live.otherStatus (live : Live env) : Live { env with table := otherStatus env.table } := by
  obtain ⟨me, on, held⟩ := live.caller
  refine ⟨⟨me, on, ?_⟩, live.placed⟩
  simpa [AbiCalls.otherStatus] using held

lemma refusal_code {give : Except WaitError UInt64 → Result}
    (apart : ∀ result err, give result = give (.error err) → result = .error err)
    (looks : waitedAs give code = waitedAs give (waitCode (refusal child))) :
    code = waitCode (refusal child) := by
  have target : ∃ err, waitedAs give (waitCode (refusal child)) = give (.error err) ∧
      (err = .timeout → waitCode (refusal child) = waitTimeout) ∧
      (err = .badId → waitCode (refusal child) = waitBadId) := by
    unfold refusal
    split
    · exact ⟨.timeout, rfl, fun _ => rfl, nofun⟩
    · exact ⟨.badId, rfl, nofun, fun _ => rfl⟩
  obtain ⟨err, shown, late, bad⟩ := target
  rw [shown, waitedAs] at looks
  split at looks
  · rename_i isBad
    exact isBad.trans (bad (Except.error.inj (apart _ _ looks)).symm).symm
  split at looks
  · rename_i isLate
    exact isLate.trans (late (Except.error.inj (apart _ _ looks)).symm).symm
  · cases apart _ _ looks

lemma asStatus_error (result : Except WaitError UInt64) (err : WaitError)
    (same : asStatus result = asStatus (.error err)) : result = .error err := by
  cases result with
  | ok => cases same
  | error => simpa [asStatus, Except.map] using same

lemma asChild_error (result : Except WaitError UInt64) (err : WaitError)
    (same : asChild result = asChild (.error err)) : result = .error err := by
  cases result with
  | ok => cases same
  | error => simpa [asChild, Except.map] using same

lemma wait_right (bound : n ≤ 0xfffffffe) (live : Live env) (call : StdCall)
    (give : Except WaitError UInt64 → Result)
    (acts : ∀ other : Env n, outcome call other = some (waitOutcome other.table child))
    (shows : ∀ found, seen call found = waitedAs give (waitCode found))
    (apart : ∀ result err, give result = give (.error err) → result = .error err)
    (aims : ∀ found, Aimed env call found)
    (reports : seen call (refusal child) = report call (refusal child)) :
    Determines call env (waitOutcome env.table child) ↔ ∀ slot :
      Fin n, child = 0 ∨ child.toNat = slot.val →
        holds .exited (env.table slot) = false := by
  rw [right_iff (acts env)]
  cases waitOutcome_case env.table child with
  | refuses refused unexited =>
    rw [refused]
    refine iff_of_true ⟨reports, aims _, ?_⟩ unexited
    rintro _ ⟨other, -, -, finds⟩ looks
    rw [acts other] at finds
    cases finds
    rw [shows, shows] at looks
    exact refused_of_code bound _ _ (refusal_code apart looks)
  | reaps slot status named exited reaped other =>
    refine iff_of_false ?_ fun meets => Bool.false_ne_true ((meets slot named).symm.trans exited)
    rintro ⟨-, -, determined⟩
    have finds := (acts { env with table := otherStatus env.table }).trans (congrArg some other)
    have looks : seen call (.reaped slot.val (status + 1)) =
      seen call (.reaped slot.val status) := by
      rfl
    rw [reaped] at determined
    have same := determined _ ⟨_, live.otherStatus, rfl, finds⟩ looks
    have shifted : status + 1 = status := (Outcome.reaped.inj same).2
    simp at shifted

/-! ## `set_priority` -/

def targetSlot (me : Fin n) (target : UInt64) : Nat :=
  if target = ofNat (2 ^ 64 - 1) then me.val else target.toNat

variable {me : Fin n}

lemma meant_eq (on : env.tpidr = some me) (target : UInt64) :
    meant env target = some (if target = 0 then me.val else targetSlot me target) := by
  unfold meant targetSlot
  by_cases zero : target = 0
  · simp [zero, on]
  by_cases last : target = ofNat (2 ^ 64 - 1)
  · simp [last, on]
  · rw [if_neg (not_or.mpr ⟨zero, last⟩), if_neg zero, if_neg last]

/-- What `sys_setprio` does for a live caller. -/
inductive PriorityCase (env : Env n) (slot : Nat) (did : Outcome) : Prop
  | sets (held : (env.table.get slot).isSome) (done : did = .prioritySet slot)
  | misses (empty : env.table.get slot = none) (done : did = .badTarget)

lemma Live.held (live : Live env) (on : env.tpidr = some me) :
    (env.table.get me.val).isSome = true := by
  obtain ⟨_, here, held⟩ := live.caller
  cases on.symm.trans here
  simpa [Table.get] using held

variable {prio : UInt8}

lemma priorityOutcome_case (live : Live env) (on : env.tpidr = some me) (target : UInt64)
    (level : prio ≠ 255) :
    PriorityCase env (targetSlot me target) (priorityOutcome env target prio) := by
  have held : (env.table me).isSome = true := by simpa [Table.get] using live.held on
  have resolved : Setprio.resolved env.table env.tpidr target = some (targetSlot me target) := by
    unfold Setprio.resolved targetSlot
    split <;> simp [on, held]
  simp only [priorityOutcome, if_neg level, resolved]
  cases held : env.table.get (targetSlot me target) with
  | none => exact .misses held rfl
  | some => exact .sets (by rw [held]; rfl) rfl

lemma setPriority_determined {env other : Env n} (live : Live env) (alive : Live other)
    (same : other.tpidr = env.tpidr) (target : UInt64) (level : prio ≠ 255)
    (looks : seen (.setPriority target prio) (priorityOutcome other target prio) =
      seen (.setPriority target prio) (priorityOutcome env target prio)) :
    priorityOutcome other target prio = priorityOutcome env target prio := by
  obtain ⟨_, on, -⟩ := live.caller
  cases priorityOutcome_case live on target level with
  | sets _ done =>
    rw [done] at looks ⊢
    cases priorityOutcome_case alive (same.trans on) target level with
    | sets _ found => exact found
    | misses _ found =>
      rw [found] at looks
      cases looks
  | misses _ done =>
    rw [done] at looks ⊢
    cases priorityOutcome_case alive (same.trans on) target level with
    | sets _ found =>
      rw [found] at looks
      cases looks
    | misses _ found => exact found

lemma setPriority_aimed (live : Live env) (target : UInt64) (level : prio ≠ 255) :
    Aimed env (.setPriority target prio) (priorityOutcome env target prio) ↔
      target ≠ 0 ∨ env.tpidr.map Fin.val = some 0 := by
  obtain ⟨me, on, -⟩ := live.caller
  have means := meant_eq on target
  by_cases zero : target = 0
  · have slot : targetSlot me target = 0 := by
      rw [zero]
      rfl
    rw [if_pos zero] at means
    have caller : (target ≠ 0 ∨ env.tpidr.map Fin.val = some 0) ↔ me.val = 0 := by
      simp [zero, on]
    rw [caller]
    cases priorityOutcome_case live on target level with
    | sets _ done =>
      rw [done, Aimed, means, slot, Option.some.injEq]
    | misses empty done =>
      rw [done, Aimed]
      refine iff_of_false ?_ ?_
      · intro missing
        have held := live.held on
        rw [missing me.val means] at held
        cases held
      · intro first
        have held := live.held on
        rw [slot, ← first] at empty
        rw [empty] at held
        cases held
  rw [if_neg zero] at means
  refine iff_of_true ?_ (.inl zero)
  cases priorityOutcome_case live on target level with
  | sets _ done =>
    rw [done]
    exact means
  | misses empty done =>
    rw [done]
    intro _ named
    rw [← some.inj (means.symm.trans named)]
    exact empty

lemma setPriority_right (live : Live env) (target : UInt64) (prio : UInt8) :
    Determines (.setPriority target prio) env (priorityOutcome env target prio) ↔
      Meets (.setPriority target prio) env := by
  rw [right_iff rfl]
  by_cases idle : prio = 255
  · have refused : ∀ other : Env n, priorityOutcome other target prio = .badPriority :=
      fun other => if_pos idle
    rw [refused]
    refine iff_of_true ⟨rfl, trivial, ?_⟩ (.inl idle)
    rintro _ ⟨other, -, -, finds⟩ -
    exact (some.inj finds).symm.trans (refused other)
  have values : seen (.setPriority target prio) (priorityOutcome env target prio) =
      report (.setPriority target prio) (priorityOutcome env target prio) := by
    cases priorityOutcome env target prio <;> rfl
  have aimed := setPriority_aimed live target idle
  constructor
  · rintro ⟨-, hits, -⟩
    exact .inr (aimed.mp hits)
  · intro meets
    refine ⟨values, aimed.mpr (meets.resolve_left idle), ?_⟩
    rintro _ ⟨_, alive, same, finds⟩ looks
    cases finds
    exact setPriority_determined live alive same target idle looks

/-! ## `create_chan` -/

lemma value_inj {one two : Nat} (oneSmall : one ≤ 256) (twoSmall : two ≤ 256)
    (same : ofNat one = ofNat two) : one = two := by
  have values := congrArg toNat same
  rw [toNat_ofNat', toNat_ofNat'] at values
  omega

lemma createChan_right (live : Live env) (does : outcome .createChan env = some did) :
    Determines .createChan env did ↔ Meets .createChan env := by
  rw [right_iff does]
  cases does
  have lives : ∀ count, Live { env with nused := count } := fun _ => ⟨live.caller, live.placed⟩
  by_cases room : env.nused < nchannels
  · rw [if_pos room]
    by_cases eight : env.nused = 8
    · refine iff_of_false ?_ fun meets => meets.2 eight
      rintro ⟨-, -, determined⟩
      have looks : seen .createChan .noSlot = seen .createChan (.created env.nused) := by
        rw [eight]
        rfl
      have full : Possible .createChan env .noSlot := ⟨_, lives nchannels, rfl, rfl⟩
      cases determined _ full looks
    refine iff_of_true ⟨rfl, trivial, ?_⟩ ⟨room, eight⟩
    rintro _ ⟨other, -, -, finds⟩ looks
    cases finds
    have small : env.nused ≤ 256 := Nat.le_trans room.le (by decide)
    by_cases space : other.nused < nchannels
    · rw [if_pos space] at looks ⊢
      injection looks with same
      rw [value_inj (Nat.le_trans space.le (by decide)) small same]
    rw [if_neg space] at looks
    injection looks with same
    have alike : 8 = env.nused := value_inj (by decide) small same
    exact absurd alike.symm eight
  rw [if_neg room]
  refine iff_of_false ?_ fun meets => room meets.1
  rintro ⟨-, -, determined⟩
  have eighth : Possible .createChan env (.created 8) := ⟨_, lives 8, rfl, rfl⟩
  cases determined _ eighth rfl

/-! ## `receive` and `receive_at` -/

lemma receiveOutcome_eq (deadline : Option UInt64) (handle buf len : UInt64) (env : Env n) :
    receiveOutcome deadline handle buf len env =
      match env.channel handle.toNat with
      | none => some .badHandle
      | some ch =>
        match answer env deadline ch with
        | none => none
        | some (.error err) => some (.failed err)
        | some (.ok msg) =>
          if (env.channels ch).queue.pop.1.isNone then some .timedOut
          else if deadline.isSome ∧ msg.opcode = receiveTimeout then
            some (.received msg.opcode 0 msg.tag)
          else copyOutcome msg buf len env := by
  unfold receiveOutcome
  cases env.channel handle.toNat with
  | none => rfl
  | some ch =>
    simp only [receivePass_eq]
    cases answer env deadline ch with
    | none => rfl
    | some found =>
      cases found with
      | error => rfl
      | ok => simp only [map_some, copyOutcome_passed]

/-- What a receive does. -/
inductive ReceiveCase (deadline : Option UInt64) (handle buf len : UInt64) (env : Env n)
    (did : Outcome) : Prop
  | noChannel (missing : env.channel handle.toNat = none) (done : did = .badHandle)
  | closed (ch : Fin nchannels) (found : env.channel handle.toNat = some ch)
    (closed : (env.channels ch).closed = true) (done : did = .failed .closed)
  | timesOut (ch : Fin nchannels) (found : env.channel handle.toNat = some ch)
    (bounded : deadline.isSome) (empty : (env.channels ch).queue.pop.1 = none)
    (done : did = .timedOut)
  | reserved (ch : Fin nchannels) (msg : Message) (found : env.channel handle.toNat = some ch)
    (next : (env.channels ch).queue.pop.1 = some msg)
    (taken : deadline.isSome ∧ msg.opcode = receiveTimeout)
    (done : did = .received msg.opcode 0 msg.tag)
  | copies (ch : Fin nchannels) (msg : Message) (found : env.channel handle.toNat = some ch)
    (opened : (env.channels ch).closed = false)
    (next : (env.channels ch).queue.pop.1 = some msg)
    (plain : ¬ (deadline.isSome ∧ msg.opcode = receiveTimeout))
    (done : copyOutcome msg buf len env = some did)

lemma receiveOutcome_case (does : receiveOutcome deadline handle buf len env = some did) :
    ReceiveCase deadline handle buf len env did := by
  rw [receiveOutcome_eq] at does
  cases found : env.channel handle.toNat with
  | none =>
    rw [found] at does
    exact .noChannel found (some.inj does).symm
  | some ch =>
    simp only [found] at does
    cases returns : answer env deadline ch with
    | none =>
      rw [returns] at does
      cases does
    | some =>
      rw [returns] at does
      cases answer_case returns with
      | closed closed => exact .closed ch found closed (some.inj does).symm
      | next msg opened popped =>
        have filled : ¬ (env.channels ch).queue.pop.1.isNone = true := by simp [popped]
        simp only [if_neg filled] at does
        by_cases taken : deadline.isSome ∧ msg.opcode = receiveTimeout
        · rw [if_pos taken] at does
          exact .reserved ch msg found popped taken (some.inj does).symm
        rw [if_neg taken] at does
        exact .copies ch msg found opened popped taken does
      | late bounded popped =>
        have drained : (env.channels ch).queue.pop.1.isNone = true := by simp [popped]
        simp only [if_pos drained] at does
        exact .timesOut ch found bounded popped (some.inj does).symm

/-- What the copy of a message does. -/
inductive CopyCase (msg : Message) (buf len : UInt64) (env : Env n) (did : Outcome) : Prop
  | refused (filled : payload msg len ≠ [])
    (range : userRangeOk ⟨env.space.root, env.kernel⟩ env.phys.mem buf.toNat
      (payload msg len).length true = some false)
    (done : did = .badVa)
  | copied (writable : payload msg len = [] ∨
      userRangeOk ⟨env.space.root, env.kernel⟩ env.phys.mem buf.toNat
        (payload msg len).length true = some true)
    (done : did = .received msg.opcode (payload msg len).length msg.tag)

lemma copyOutcome_case (does : copyOutcome msg buf len env = some did) :
    CopyCase msg buf len env did := by
  unfold copyOutcome writeUser at does
  by_cases empty : payload msg len = []
  · rw [empty] at does
    refine .copied (.inl empty) ?_
    rw [empty]
    exact (some.inj does).symm
  have filled : ¬ (payload msg len).length = 0 := by simpa using empty
  rw [if_neg filled] at does
  cases range : userRangeOk ⟨env.space.root, env.kernel⟩ env.phys.mem buf.toNat
      (payload msg len).length true with
  | none =>
    rw [range] at does
    cases does
  | some accepted =>
    rw [range] at does
    cases accepted with
    | false => exact .refused empty range (some.inj does).symm
    | true =>
      simp only [Option.map_map] at does
      obtain ⟨_, -, done⟩ := Option.map_eq_some_iff.mp does
      exact .copied (.inr range) done.symm

lemma payload_small (msg : Message) (len : UInt64) : (payload msg len).length ≤ 256 := by
  have whole : msg.buf.toList.length = 256 := msg.buf.length_toList
  rw [payload, List.length_map, List.length_take]
  omega

lemma payload_room (filled : payload msg len ≠ []) : len ≠ 0 := by
  rintro rfl
  apply filled
  simp [payload]

section

variable (deadline : Option UInt64) (buf len : UInt64)

def staged (env : Env n) (inner : ChannelInner) (counter : UInt64) (phys : Phys) : Env n :=
  { env with nused := nchannels, channels := fun _ => inner, counter, phys }

lemma staged_channel (env : Env n) (small : handle.toNat < nchannels) (inner : ChannelInner)
    (counter : UInt64) (phys : Phys) :
    (staged env inner counter phys).channel handle.toNat = some ⟨handle.toNat, small⟩ := by
  simp [channel, staged, small]

section

variable (live : Live env)
include live

lemma possible_badHandle : Possible (.receive deadline handle buf len) env .badHandle := by
  refine ⟨{ env with nused := 0 }, ⟨live.caller, live.placed⟩, rfl, ?_⟩
  have missing : ({ env with nused := 0 } : Env n).channel handle.toNat = none := by
    simp [channel]
  simp only [outcome, receiveOutcome, missing]

variable (small : handle.toNat < nchannels)
include small

lemma possible_closed : Possible (.receive deadline handle buf len) env (.failed .closed) := by
  obtain ⟨_, on, -⟩ := live.caller
  refine ⟨staged env { ChannelInner.new with closed := true } 0 env.phys,
    ⟨live.caller, live.placed⟩, rfl, ?_⟩
  simp only [outcome, receiveOutcome_eq, staged_channel env small]
  simp [answer, staged, on]

lemma possible_timeout (bounded : deadline.isSome) :
    Possible (.receive deadline handle buf len) env .timedOut := by
  obtain ⟨_, on, -⟩ := live.caller
  obtain ⟨limit, rfl⟩ := Option.isSome_iff_exists.mp bounded
  refine ⟨staged env .new limit env.phys, ⟨live.caller, live.placed⟩, rfl, ?_⟩
  have empty : ChannelInner.new.queue.pop.1 = none := rfl
  have opened : ChannelInner.new.closed = false := rfl
  simp only [outcome, receiveOutcome_eq, staged_channel env small]
  simp [answer, staged, on, empty, opened]

def holding (msg : Message) : ChannelInner :=
  { ChannelInner.new with queue := (BoundedQueue.new.push msg).2 }

lemma possible_message (msg : Message) (phys : Phys)
    (does : (if deadline.isSome ∧ msg.opcode = receiveTimeout then
        some (.received msg.opcode 0 msg.tag)
      else copyOutcome msg buf len { env with phys }) = some did) :
    Possible (.receive deadline handle buf len) env did := by
  obtain ⟨_, on, -⟩ := live.caller
  refine ⟨staged env (holding msg) 0 phys, ⟨live.caller, live.placed⟩, rfl, ?_⟩
  have next : (holding msg).queue.pop.1 = some msg := rfl
  have opened : (holding msg).closed = false := rfl
  have returns : answer (staged env (holding msg) 0 phys) deadline ⟨handle.toNat, small⟩ =
      some (.ok msg) := by
    simp [answer, staged, on, opened, next]
  have filled : ¬ ((staged env (holding msg) 0 phys).channels ⟨handle.toNat,
    small⟩).queue.pop.1.isNone = true := by
    simp [staged, next]
  simp only [outcome, receiveOutcome_eq, staged_channel env small, returns, if_neg filled]
  exact does

lemma possible_bare (opcode : UInt16) : Possible (.receive deadline handle buf len) env
    (.received opcode 0 0) := by
  have bare : payload (new opcode 0 []) len = [] := by simp [payload, new]
  apply possible_message deadline buf len live small (new opcode 0 []) env.phys
  split
  · rfl
  · rfl

end

lemma userRangeOk_zero (root kernel : PageNo) (va : Nat) :
    userRangeOk ⟨root, kernel⟩ (fun _ _ => 0) va 1 true = some false := by
  have invalid : (0 : Entry).valid = false := by decide
  have leaf : ∀ page, userLeafEntry ⟨root, kernel⟩ (fun _ _ => 0) page = some none := fun page => by
    simp only [userLeafEntry, userLeafFrom, invalid]
    rfl
  unfold userRangeOk
  cases sum : checkedAdd va 1 with
  | none => rfl
  | some =>
    obtain ⟨rfl, -⟩ := checkedAdd_some sum
    by_cases high : va + 1 > kzero
    · simp only [if_pos high]
    have pages : ∃ count, (va + 1 - va / pageSize4K * pageSize4K + pageSize4K - 1) / pageSize4K =
        count + 1 := by
      refine ⟨_, (Nat.sub_add_cancel ?_).symm⟩
      rw [pageSize4K]
      omega
    obtain ⟨_, pages⟩ := pages
    simp only [if_neg high, pages, pagesOk, leaf]
    rfl

lemma possible_badVa (live : Live env) (small : handle.toNat < nchannels) (room : len ≠ 0) :
    Possible (.receive deadline handle buf len) env .badVa := by
  have one : payload (new 0 0 [0]) len = [0] := by
    have least : min (new 0 0 [0]).len.toNat len.toNat = 1 := by
      have positive : len.toNat ≠ 0 := fun zero => room (UInt64.toNat_inj.mp zero)
      change min 1 len.toNat = 1
      omega
    rw [payload, least]
    decide +kernel
  apply possible_message deadline buf len live small (new 0 0 [0]) ⟨fun _ _ => 0, []⟩
  have plain : ¬ (deadline.isSome ∧ (new 0 0 [0]).opcode = receiveTimeout) :=
    fun taken => absurd taken.2 (by decide)
  have range := userRangeOk_zero env.space.root env.kernel buf.toNat
  rw [if_neg plain, copyOutcome, one, writeUser]
  simp only [List.length_singleton, range]
  rfl

end

lemma view_received {opcode : UInt16} (plain : ¬ (deadline.isSome ∧ opcode = receiveTimeout))
    (count : Nat) (tag : UInt32) :
    view deadline (.received opcode count tag) = ⟨opcode, ofNat count, tag⟩ := if_neg plain

variable {ch : Fin nchannels}

lemma channel_small {handle : Nat} (found : env.channel handle = some ch) : handle < nchannels := by
  unfold channel at found
  split at found
  · assumption
  · cases found

lemma bare_of_view {code : UInt16}
    (view : (⟨code, 0, 0⟩ : Received) = ⟨msg.opcode, ofNat (payload msg len).length, msg.tag⟩) :
    msg.opcode = code ∧ payload msg len = [] ∧ msg.tag = 0 := by
  injection view with opcode bytes tag
  refine ⟨opcode.symm, ?_, tag.symm⟩
  exact List.length_eq_zero_iff.mp (value_inj (payload_small msg len) (by decide) bytes.symm)

lemma copied_determined (buf len : UInt64) (live : Live env)
    (found : env.channel handle.toNat = some ch)
    (plain : ¬ (deadline.isSome ∧ msg.opcode = receiveTimeout)) :
    (∀ other, Possible (.receive deadline handle buf len) env other →
        seen (.receive deadline handle buf len) other = seen (.receive deadline handle buf len)
          (.received msg.opcode (payload msg len).length msg.tag) →
        other = .received msg.opcode (payload msg len).length msg.tag) ↔
      ¬ LooksFailed msg len := by
  have small := channel_small found
  have shown := view_received plain (payload msg len).length msg.tag
  constructor
  · rintro determined ⟨tag, empty, codes⟩
    have looks : ∀ code, msg.opcode = code →
        Result.message ⟨code, 0, 0⟩ = seen (.receive deadline handle buf len)
          (.received msg.opcode (payload msg len).length msg.tag) := by
      rintro _ rfl
      rw [seen, shown, tag, empty]
      rfl
    rcases codes with one | two | ⟨ten, room⟩
    · cases determined _ (possible_badHandle deadline buf len live) (looks 1 one)
    · cases determined _ (possible_closed deadline buf len live small) (looks 2 two)
    · cases determined _ (possible_badVa deadline buf len live small room) (looks 10 ten)
  · rintro clear _ ⟨_, -, -, finds⟩ looks
    have view := Result.message.inj looks
    rw [shown] at view
    cases receiveOutcome_case finds with
    | noChannel _ done =>
      rw [done] at view
      obtain ⟨one, empty, tag⟩ := bare_of_view view
      exact absurd ⟨tag, empty, .inl one⟩ clear
    | closed _ _ _ done =>
      rw [done] at view
      obtain ⟨two, empty, tag⟩ := bare_of_view view
      exact absurd ⟨tag, empty, .inr (.inl two)⟩ clear
    | timesOut _ _ bounded _ done =>
      rw [done] at view
      exact absurd ⟨bounded, (bare_of_view view).1⟩ plain
    | reserved _ _ _ _ taken done =>
      rw [done, AbiResults.view, if_pos taken] at view
      exact absurd ⟨taken.1, (bare_of_view view).1⟩ plain
    | copies _ queued _ _ _ unreserved copies =>
      cases copyOutcome_case copies with
      | refused filled _ done =>
        rw [done] at view
        obtain ⟨ten, empty, tag⟩ := bare_of_view view
        exact absurd ⟨tag, empty, .inr (.inr ⟨ten, payload_room filled⟩)⟩ clear
      | copied _ done =>
        rw [done, view_received unreserved] at view
        injection view with opcode bytes tag
        rw [done, opcode, value_inj (payload_small queued len) (payload_small msg len) bytes, tag]

lemma meets_plain (found : env.channel handle.toNat = some ch)
    (meets : Meets (.receive deadline handle buf len) env) :
    ∃ msg, Plain deadline ch buf len env msg := by
  rcases meets with large | ⟨_, msg, same, plain⟩
  · exact absurd (channel_small found) (Nat.not_lt.mpr large)
  rw [some.inj (found.symm.trans same)]
  exact ⟨msg, plain⟩

/-- A receive is right exactly if the handle is out of the table, or the next message can be told
from everything else. -/
lemma receive_right (live : Live env) (does : outcome (.receive deadline handle buf len) env =
    some did) :
    Determines (.receive deadline handle buf len) env did ↔
      Meets (.receive deadline handle buf len) env := by
  have looksBare : ∀ code : UInt16, seen (.receive deadline handle buf len) (.received code 0 0) =
      .message ⟨code, 0, 0⟩ := by
    intro code
    by_cases taken : deadline.isSome ∧ code = receiveTimeout
    · rw [seen, view, if_pos taken, taken.2]
    · exact congrArg Result.message (view_received taken 0 0)
  rw [right_iff does]
  cases receiveOutcome_case does with
  | noChannel missing done =>
    rw [done]
    by_cases small : handle.toNat < nchannels
    · refine iff_of_false ?_ ?_
      · rintro ⟨-, -, determined⟩
        cases determined _ (possible_bare deadline buf len live small 1) (looksBare 1)
      · rintro (large | ⟨ch, msg, found, -⟩)
        · exact absurd small (Nat.not_lt.mpr large)
        · cases missing.symm.trans found
    refine iff_of_true ⟨rfl, trivial, ?_⟩ (.inl (Nat.le_of_not_lt small))
    rintro _ ⟨state, -, -, finds⟩ -
    have nothing : state.channel handle.toNat = none := by simp [channel, small]
    simp only [outcome, receiveOutcome, nothing] at finds
    exact (some.inj finds).symm
  | closed _ found closed done =>
    rw [done]
    refine iff_of_false ?_ ?_
    · rintro ⟨-, -, determined⟩
      have bare := possible_bare deadline buf len live (channel_small found) 2
      cases determined _ bare (looksBare 2)
    · intro meets
      obtain ⟨_, plain⟩ := meets_plain found meets
      cases closed.symm.trans plain.opened
  | timesOut _ found _ empty done =>
    rw [done]
    refine iff_of_false ?_ ?_
    · rintro ⟨-, -, determined⟩
      have bare := possible_bare deadline buf len live (channel_small found) receiveTimeout
      cases determined _ bare (looksBare receiveTimeout)
    · intro meets
      obtain ⟨_, plain⟩ := meets_plain found meets
      cases empty.symm.trans plain.next
  | reserved _ msg found next taken done =>
    rw [done]
    refine iff_of_false ?_ ?_
    · rintro ⟨-, -, determined⟩
      have late := possible_timeout deadline buf len live (channel_small found) taken.1
      have looks : seen (.receive deadline handle buf len) .timedOut =
          seen (.receive deadline handle buf len) (.received msg.opcode 0 msg.tag) := by
        simp only [seen, view, if_pos taken]
        rfl
      cases determined _ late looks
    · intro meets
      obtain ⟨_, plain⟩ := meets_plain found meets
      rw [← some.inj (next.symm.trans plain.next)] at plain
      exact plain.unreserved taken
  | copies ch msg found opened next plain copies =>
    cases copyOutcome_case copies with
    | refused filled range done =>
      rw [done]
      refine iff_of_false ?_ ?_
      · rintro ⟨-, -, determined⟩
        have bare := possible_bare deadline buf len live (channel_small found) 10
        cases determined _ bare (looksBare 10)
      · intro meets
        obtain ⟨_, plain⟩ := meets_plain found meets
        rw [← some.inj (next.symm.trans plain.next)] at plain
        rcases plain.writable with empty | accepted
        · exact filled empty
        · cases range.symm.trans accepted
    | copied writable done =>
      rw [done]
      have clear := copied_determined buf len live found plain
      constructor
      · rintro ⟨-, -, determined⟩
        exact .inr ⟨ch, msg, found, opened, next, writable, plain, clear.mp determined⟩
      · intro meets
        obtain ⟨queued, meets⟩ := meets_plain found meets
        rw [← some.inj (next.symm.trans meets.next)] at meets
        refine ⟨?_, trivial, clear.mpr meets.clear⟩
        exact congrArg Result.message (view_received plain _ _)

/-- What a call returns determines what its handler did, whatever the kernel's state, exactly if no
page is granted, no process is reaped, a target 0 comes from process 0, a handle is created that is
not 8, or a message is received that cannot be taken for an error or a timeout. -/
theorem result_determines_iff (bound : n ≤ 0xfffffffe) (call : StdCall) (env : Env n)
    (live : Live env)
    (did : Outcome) (does : outcome call env = some did) : Determines call env did ↔
    Meets call env := by
  cases call with
  | allocPage => exact allocPage_right live does
  | processWait id deadline =>
    cases does
    apply wait_right bound live (.processWait id deadline) asStatus (fun _ => rfl) (fun _ => rfl)
      asStatus_error
      (fun _ => trivial)
    unfold refusal
    split <;> rfl
  | waitAny deadline =>
    cases does
    have right := wait_right bound live (.waitAny deadline) asChild (fun _ => rfl) (fun _ => rfl)
      asChild_error (fun _ => trivial) rfl
    rw [right]
    exact ⟨fun meets slot => meets slot (.inl rfl), fun meets slot _ => meets slot⟩
  | setPriority target prio =>
    cases does
    exact setPriority_right live target prio
  | createChan => exact createChan_right live does
  | receive => exact receive_right live does

end

/-! ## A caller -/

def caller : Env 2 where
  table :=
  fun slot => if slot = 0 then some ⟨.exited, 7, .new 1, none⟩
    else some ⟨.running, 0, .new 1, none⟩
  tpidr := some 1
  counter := 0
  nused := 0
  channels := fun _ => .new
  space := emptyProcess.space
  kernel := 100
  phys := emptyProcess.phys

lemma caller_live : Live caller := ⟨⟨1, rfl, rfl⟩, by decide⟩

/-- The first channel of the caller is determined by its handle. -/
theorem result_determines_iff_first : Live caller ∧ outcome .createChan caller = some (.created 0) ∧
      Determines .createChan caller (.created 0) :=
  ⟨caller_live, rfl,
    (result_determines_iff (by decide) .createChan caller caller_live _ rfl).mpr
      ⟨by decide, by decide⟩⟩

/-- The caller is given a page at 0x1000 and told 0, it reaps status 7 and is told 0, its priority
is set for process 0, and channel 8 is returned as a full table is. -/
theorem results_mislead :
    Live caller ∧ (outcome .allocPage caller = some (.mapped 0x200000 0x1000) ∧
      wrapper .allocPage caller = some (.page (some (0x200000, 0)))) ∧
    (outcome (.waitAny 0) caller = some (.reaped 0 7) ∧
      wrapper (.waitAny 0) caller = some (.waitedAny (.ok (0, 0)))) ∧
    (outcome (.setPriority 0 5) caller = some (.prioritySet 0) ∧ meant caller 0 = some 1) ∧
    (outcome .createChan { caller with nused := 8 } = some (.created 8) ∧
      outcome .createChan { caller with nused := 16 } = some .noSlot ∧
      wrapper .createChan { caller with nused := 8 } = wrapper .createChan
        { caller with nused := 16 }) ∧
    ¬ Determines .allocPage caller (.mapped 0x200000 0x1000) ∧
    ¬ Determines (.waitAny 0) caller (.reaped 0 7) ∧
    ¬ Determines (.setPriority 0 5) caller (.prioritySet 0) := by
  have page : outcome .allocPage caller = some (.mapped 0x200000 0x1000) := by decide +kernel
  have reaps : outcome (.waitAny 0) caller = some (.reaped 0 7) := by decide
  have given : wrapper .allocPage caller = some (.page (some (0x200000, 0))) := by
    rw [wrapper_eq, page]
    rfl
  have waited : wrapper (.waitAny 0) caller = some (.waitedAny (.ok (0, 0))) := by
    rfl
  refine ⟨caller_live, ⟨page, given⟩, ⟨reaps, waited⟩, ⟨by decide, rfl⟩, ⟨rfl, rfl, rfl⟩, ?_, ?_,
    ?_⟩
  · intro right
    have told := Result.page.inj (Option.some.inj (given.symm.trans right.values))
    exact absurd (Prod.mk.inj (Option.some.inj told)).2 (by decide)
  · intro right
    exact absurd (waited.symm.trans right.values) (by simp [report])
  · intro right
    have aimed : meant caller 0 = some 0 := right.aimed
    exact absurd aimed (by decide)

end R9x.Verif.AbiCalls
