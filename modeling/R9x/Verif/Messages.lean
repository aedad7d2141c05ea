import R9x.Verif.AbiCalls
import R9x.Verif.Sections
import R9x.Verif.UserRange

/-!
# Messages from buffer to buffer

A message is copied out of the sender's memory by `sys_send` or `sys_reply`, waits in the queue of a
channel, and is copied to the receiver's buffer by `sys_receive`.
-/

namespace R9x.Verif.Messages

open Lib Abi Port.Ipc Aarch64 Aarch64.Vm AbiResults AbiCalls
open BitVec (ofNat)
open BoundedQueue (push_room pop_message pop)
open PageTree UserRange
open Port.Ipc.Call (send)
open Env (payload)
open Option (some.inj map_some)

variable {n : Nat} {bytes : List Byte} {msg : Message} {phys : Phys} {mem : Mem}

/-! ## A receive that finds a message -/

/-- A receive of the current process takes the next message of an open channel. -/
structure Takes (deadline : Option UInt64) (handle : UInt64) (env : Env n) (ch : Fin nchannels)
    (msg : Message) : Prop where
  current : env.tpidr.isSome
  named : env.channel handle.toNat = some ch
  opened : (env.channels ch).closed = false
  next : (env.channels ch).queue.pop.1 = some msg
  plain : ¬ (deadline.isSome ∧ msg.opcode = receiveTimeout)

section

variable {deadline : Option UInt64} {handle : UInt64} {env : Env n} {ch : Fin nchannels}

section

variable (takes : Takes deadline handle env ch msg)
include takes

lemma Takes.answer : answer env deadline ch = some (.ok msg) := by
  obtain ⟨_, on⟩ := Option.isSome_iff_exists.mp takes.current
  simp [AbiResults.answer, on, takes.opened, takes.next]

lemma Takes.handled (buf cap : UInt64) :
    handled deadline handle buf cap env = (passed env deadline ch).giveMessage msg buf cap := by
  simp only [handled_eq, takes.named, receivePass_eq, takes.answer, map_some, if_neg takes.plain]

lemma Takes.queue : ((passed env deadline ch).channels ch).queue =
    (env.channels ch).queue.pop.2 := by
  obtain ⟨me, on⟩ := Option.isSome_iff_exists.mp takes.current
  obtain ⟨_, pass⟩ := pass_receiving deadline me.val (KernSched.mk env.table env.counter)
    (env.channels ch)
  have popped : (env.channels ch).queue.pop = (some msg, (env.channels ch).queue.pop.2) := by
    rw [← takes.next]
  simp only [passed, on, pass, Function.update_self, receiveLocked, takes.opened,
    Bool.false_eq_true, if_false]
  rw [popped]
  rfl

end

lemma passed_memory (env : Env n) (deadline : Option UInt64) (ch : Fin nchannels) :
    (passed env deadline ch).space = env.space ∧ (passed env deadline ch).kernel = env.kernel ∧
      (passed env deadline ch).phys = env.phys := by
  unfold passed
  cases env.tpidr <;> exact ⟨rfl, rfl, rfl⟩

lemma pop_moves {queue : BoundedQueue} (popped : queue.pop.1 = some msg) :
    queue.pop.2.head = Ring.cell queue.head 1 := by
  unfold pop at popped ⊢
  cases slot : queue.slots.get queue.head with
  | none =>
    rw [slot] at popped
    cases popped
  | some => rfl

end

/-! ## A refused buffer -/

/-- A receive that is refused for its buffer leaves the channels and the processes as they were, and
a call with another buffer returns what it would have returned. -/
def Harmless (deadline : Option UInt64) (handle buf cap : UInt64) (env : Env n) : Prop :=
  ∀ registers after, handled deadline handle buf cap env = some (registers, after) →
    receiveOutcome deadline handle buf cap env = some .badVa →
    after.channels = env.channels ∧ after.table = env.table ∧ ∀ other room,
      (handled deadline handle other room after).map Prod.fst =
        (handled deadline handle other room env).map Prod.fst

/-- A message with bytes to copy is next, and the check refuses the buffer. -/
def Refused (deadline : Option UInt64) (handle buf cap : UInt64) (env : Env n) : Prop :=
  ∃ ch msg, Takes deadline handle env ch msg ∧ payload msg cap ≠ [] ∧
    userRangeOk ⟨env.space.root, env.kernel⟩ env.phys.mem buf.toNat (payload msg cap).length true =
      some false

lemma handled_refused {deadline : Option UInt64} {handle : UInt64} {env : Env n}
    {ch : Fin nchannels} (buf cap : UInt64) (takes : Takes deadline handle env ch msg)
    (filled : payload msg cap ≠ [])
    (range : userRangeOk ⟨env.space.root, env.kernel⟩ env.phys.mem buf.toNat
      (payload msg cap).length true = some false) :
    handled deadline handle buf cap env = some ((errBadVa, 0, 0), passed env deadline ch) ∧
      receiveOutcome deadline handle buf cap env = some .badVa := by
  obtain ⟨space, kernel, phys⟩ := passed_memory env deadline ch
  have some : ¬ (payload msg cap).length = 0 := by simpa using filled
  have drained : ¬ (env.channels ch).queue.pop.1.isNone = true := by simp [takes.next]
  constructor
  · rw [takes.handled, Env.giveMessage, space, kernel, phys, writeUser, if_neg some, range, ← space,
      ← kernel, ← phys]
    rfl
  · simp only [receiveOutcome_eq, takes.named, takes.answer, if_neg drained, if_neg takes.plain]
    rw [copyOutcome, writeUser, if_neg some, range]
    rfl

/-- A receive is harmless exactly if no buffer is refused: the message is gone by then. -/
theorem receive_harmless_iff (deadline : Option UInt64) (handle buf cap : UInt64) (env : Env n) :
    Harmless deadline handle buf cap env ↔ ¬ Refused deadline handle buf cap env := by
  constructor
  · rintro harmless ⟨ch, _, takes, filled, range⟩
    obtain ⟨returns, fails⟩ := handled_refused buf cap takes filled range
    obtain ⟨channels, -, -⟩ := harmless _ _ returns fails
    have queue := takes.queue
    rw [channels] at queue
    have head := pop_moves takes.next
    rw [← queue] at head
    have moved := Ring.cell_injective (env.channels ch).queue.head (show 1 < queueCap by decide)
      (show 0 < queueCap by decide) (head.symm.trans (Ring.cell_zero _).symm)
    cases moved
  · intro accepted _ _ _ fails
    cases receiveOutcome_case fails with
    | noChannel missing done | closed ch found closed done | timesOut ch found bounded empty done
    | reserved _ _ _ _ _ done => cases done
    | copies ch msg found opened next plain done =>
      cases copyOutcome_case done with
      | refused filled range =>
        have current : env.tpidr.isSome := by
          cases on : env.tpidr with
          | some => rfl
          | none => simp [receiveOutcome_eq, found, answer, on] at fails
        exact absurd ⟨ch, msg, ⟨current, found, opened, next, plain⟩, filled, range⟩ accepted
      | copied _ done => cases done

def firstChannel : Fin nchannels := ⟨0, by decide⟩

def addressed : Env 2 := { caller with nused := 1, channels := fun _ => holding (.new 7 9 [1]) }

/-- A receive into the kernel half is refused, and the message is lost: before, a buffer without
bytes would have been given it, and after the refusal such a receive waits. -/
theorem refused_loses_message :
    ∃ after, addressed.sysReceive 0 0xffffffffffff0000 1 = some ((errBadVa, 0, 0), after) ∧
      (∀ ch, (addressed.channels ch).queue.len = 1) ∧ (after.channels firstChannel).queue.len = 0 ∧
      (addressed.sysReceive 0 0 0).map Prod.fst = some (7, 0, 9) ∧ after.sysReceive 0 0 0 = none ∧
      ¬ Harmless none 0 0xffffffffffff0000 1 addressed := by
  have takes : Takes none 0 addressed firstChannel (.new 7 9 [1]) :=
    ⟨rfl, rfl, rfl, rfl, by decide⟩
  have one : Env.payload (.new 7 9 [1]) 1 = [1] := by decide +kernel
  obtain ⟨returns, fails⟩ := handled_refused 0xffffffffffff0000 1 takes
    (by rw [one]; decide) (by rw [one]; decide +kernel)
  refine ⟨_, returns, fun _ => rfl, rfl, ?_, rfl, fun harmless => ?_⟩
  · decide +kernel
  · obtain ⟨channels, -, -⟩ := harmless _ _ returns fails
    have same := congrFun channels firstChannel
    exact absurd (congrArg (fun inner => inner.queue.len) same) (by decide)

/-! ## The queue between a send and a receive -/

/-- Passes of calls on a channel, each by some process and from some state of the scheduler: the
channel after them, and the number of messages they took. -/
def traffic (inner : ChannelInner) : List (Port.Ipc.Call × ProcId × KernSched n) →
    ChannelInner × Nat
  | [] => (inner, 0)
  | (call, me, sched) :: rest =>
    let after := (call.pass me sched inner).inner
    let (final, taken) := traffic after rest
    (final, inner.queue.len - after.queue.len + taken)

section

variable {inner : ChannelInner}

lemma pass_queue (sound : inner.Sound) (call : Port.Ipc.Call) (me : ProcId) (sched : KernSched n) :
    (call.pass me sched inner).inner.Sound ∧ ∃ more,
      (call.pass me sched inner).inner.queue.contents = (inner.queue.contents ++ more).drop
        (inner.queue.len - (call.pass me sched inner).inner.queue.len) := by
  have ran := pass_ran sound call me sched
  generalize call.pass me sched inner = progress at ran
  have kept : ∃ more, inner.queue.contents =
      (inner.queue.contents ++ more).drop (inner.queue.len - inner.queue.len) :=
    ⟨[], by rw [Nat.sub_self, List.drop_zero, List.append_nil]⟩
  have pushed : ∀ msg, inner.queue.len < queueCap → ∃ more, (inner.queue.push msg).2.contents =
      (inner.queue.contents ++ more).drop (inner.queue.len - (inner.queue.push msg).2.len) := by
    intro msg room
    obtain ⟨-, -, contents, len⟩ := push_room sound.formed room msg
    refine ⟨[msg], ?_⟩
    rw [contents, len, Nat.sub_eq_zero_of_le (Nat.le_succ _), List.drop_zero]
  cases ran with
  | closed | refused | nothing | timeout => exact ⟨sound, kept⟩
  | handoff msg _ _ opened _ empty =>
    have room : inner.queue.len < queueCap := by rw [empty]; decide
    exact ⟨sound.push opened room msg, pushed msg room⟩
  | queued msg _ opened free room =>
    have after := sound.push opened room msg
    rw [← free] at after
    exact ⟨after, pushed msg room⟩
  | full _ _ opened _ full => exact ⟨sound.recordSender opened full me, kept⟩
  | popped msg rest takes opened filled =>
    obtain ⟨_, _, contents, -, -, after, len⟩ := pop_message sound.formed filled
    refine ⟨sound.pop opened filled, [], ?_⟩
    have one : inner.queue.len - inner.queue.pop.2.len = 1 := by omega
    rw [one, after, contents, List.append_nil, List.drop_one, List.tail_cons]
  | sleeps _ opened empty => exact ⟨sound.recordReceiver opened empty me, kept⟩
  | close => exact ⟨sound.close, kept⟩

lemma traffic_queue (sound : inner.Sound) (passes : List (Port.Ipc.Call × ProcId × KernSched n)) :
    (traffic inner passes).1.Sound ∧ ∃ more, (traffic inner passes).1.queue.contents =
      (inner.queue.contents ++ more).drop (traffic inner passes).2 := by
  induction passes generalizing inner with
  | nil => exact ⟨sound, [], by rw [List.append_nil]; rfl⟩
  | cons pass rest ih =>
    obtain ⟨call, me, sched⟩ := pass
    obtain ⟨after, more, contents⟩ := pass_queue sound call me sched
    obtain ⟨final, later, ends⟩ := ih after
    refine ⟨final, more ++ later, ?_⟩
    have length := sound.formed.holds.2
    rw [contents, ← List.drop_append_of_le_length (by rw [List.length_append]; omega),
      List.drop_drop, List.append_assoc] at ends
    exact ends

lemma traffic_next (sound : inner.Sound) (passes : List (Port.Ipc.Call × ProcId × KernSched n))
    {front : List Message} {msg : Message} (queued : inner.queue.contents = front ++ [msg])
    (taken : (traffic inner passes).2 = front.length) :
    (traffic inner passes).1.queue.pop.1 = some msg := by
  obtain ⟨final, _, contents⟩ := traffic_queue sound passes
  rw [queued, taken, List.append_assoc, List.drop_left] at contents
  have some : 0 < (traffic inner passes).1.queue.len := by
    rw [← final.formed.holds.2, contents]
    exact Nat.succ_pos _
  obtain ⟨_, _, listed, popped, -⟩ := pop_message final.formed some
  rw [contents] at listed
  rw [popped, (List.cons.inj listed).1]

end

/-! ## A send that returned -/

section

variable {replyTo : Option UInt32} {ch : Fin nchannels} {env after : Env n}

lemma post_case (replyTo : Option UInt32) (me : ProcId) (msg : Message) (sched : KernSched n)
    (inner : ChannelInner) :
    Env.post replyTo me msg sched inner = ⟨.returned (.error .badTag), sched, inner⟩ ∨
      Env.post replyTo me msg sched inner = (send msg).pass me sched inner := by
  cases replyTo with
  | none => exact .inr rfl
  | some tag =>
    by_cases same : msg.tag = tag
    · exact .inr (if_neg (not_not.mpr same))
    · exact .inl (if_pos same)

lemma errCode_ne_zero (err : IpcErr) : Env.errCode err ≠ 0 := by
  cases err <;> decide

lemma send_queues {inner : ChannelInner} (sound : inner.Sound) {me : ProcId} {sched : KernSched n}
    {found : Option Message} (returns : ((send msg).pass me sched inner).verdict =
      .returned (.ok found)) :
    ((send msg).pass me sched inner).inner.queue.contents = inner.queue.contents ++ [msg] := by
  have ran := pass_ran sound (.send msg) me sched
  generalize (send msg).pass me sched inner = progress at ran returns
  cases ran with
  | closed | full => cases returns
  | handoff posted _ posts _ _ empty =>
    obtain rfl : msg = posted := by simpa using posts
    have room : inner.queue.len < queueCap := by rw [empty]; decide
    exact (push_room sound.formed room msg).2.2.1
  | queued posted posts _ _ room =>
    obtain rfl : msg = posted := by simpa using posts
    exact (push_room sound.formed room msg).2.2.1
  | popped _ _ takes => simp [Port.Ipc.Call.receives] at takes
  | refused _ wrong | nothing wrong | timeout _ wrong | sleeps wrong | close wrong => cases wrong

lemma sendPass_ok (sound : (env.channels ch).Sound)
    (sent : env.sendPass replyTo msg ch = some (some 0, after)) :
    (after.channels ch).Sound ∧
      (after.channels ch).queue.contents = (env.channels ch).queue.contents ++ [msg] := by
  unfold Env.sendPass at sent
  cases on : env.tpidr with
  | none =>
    rw [on] at sent
    cases sent
  | some me =>
    simp only [on] at sent
    split at sent
    · rename_i verdict
      rcases post_case replyTo me.val msg ⟨env.table, env.counter⟩ (env.channels ch) with bad | pass
      · rw [bad] at verdict
        cases verdict
      rw [pass] at verdict sent
      obtain rfl := (Prod.mk.inj (some.inj sent)).2
      simp only [Function.update_self]
      exact ⟨(pass_queue sound _ _ _).1, send_queues sound verdict⟩
    · rename_i err _
      have code := (Prod.mk.inj (some.inj sent)).1
      exact absurd (some.inj code) (errCode_ne_zero err)
    · cases (Prod.mk.inj (some.inj sent)).1
    · cases sent

end

/-! ## The two copies -/

/-- A byte of user memory that EL0 may write, outside the tables. -/
structure Writable (mem : Mem) (root : PageNo) (byte : Nat) : Prop where
  accessible : Accessible mem root true byte
  data : ∀ size entry, walk mem root (ofNat 64 byte) = some (size, entry) →
    ¬ InTree mem root (frame size entry (ofNat 64 byte))

lemma Writable.outside {root : PageNo} {byte : Nat} (writable : Writable mem root byte)
    (tree : Tree mem root) (paged : Paged mem root) :
    vaIndex (ofNat 64 byte) .level0 ≠ recursiveSlot := by
  intro slot
  obtain ⟨-, _, _, walked, -, user, -⟩ := writable.accessible
  rw [slot_private tree paged slot walked] at user
  cases user

lemma writeUser_writes {ttbr : Ttbr} (built : Built phys.mem ttbr.user)
    (paged : Paged phys.mem ttbr.user) {va : Nat} (short : bytes.length ≤ pageSize4K)
    (writable : ∀ k < bytes.length, Writable phys.mem ttbr.user (va + k)) :
    ∃ after, writeUser ttbr va bytes phys = some (some bytes.length, after) ∧
      Stored phys.mem ttbr.user va bytes phys after ∧
      ∀ (k : Nat) (bound : k < bytes.length), loadByte ttbr after.mem (va + k) = some bytes[k] := by
  have each : ∀ byte, va ≤ byte → byte < va + bytes.length → Writable phys.mem ttbr.user byte := by
    intro byte above below
    have known := writable (byte - va) (by omega)
    rwa [Nat.add_sub_cancel' above] at known
  obtain ⟨after, stores, agrees, stored⟩ := storeBytes_spec built.tree (fun _ _ => rfl)
    (fun byte above below =>
      ⟨(each byte above below).accessible, (each byte above below).outside built.tree paged⟩)
    (fun byte above below => (each byte above below).data)
  refine ⟨after, ?_, stored, fun k bound => ?_⟩
  · rw [writeUser]
    split
    · rename_i none
      obtain rfl := List.eq_nil_of_length_eq_zero none
      rw [some.inj stores]
      rfl
    rw [built.accepts (by omega) fun byte above below => (each byte above below).accessible]
    simp only [stores, map_some]
  · have reached := (writable k bound).accessible
    obtain ⟨size, entry, walked, -, -⟩ := reached.userWalk
    have now : userWalk after.mem ttbr.user (ofNat 64 (va + k)) = some (size, entry) := by
      rw [userWalk, agrees.walks built.tree _ ((writable k bound).outside built.tree paged)]
      exact walked
    have here : place phys.mem ttbr.user (va + k) =
        some (frame size entry (ofNat 64 (va + k)), (va + k) % pageSize4K) := by
      rw [place, walked]
      rfl
    rw [loadByte, now, map_some, stored.written short k bound _ _ here]

lemma mapM_get {α β : Type} {f : α → Option β} {list : List α} {values : List β}
    (succeeds : list.mapM f = some values) :
    values.length = list.length ∧ ∀ (k : Nat) (bound : k < list.length)
      (bound' : k < values.length),
      f list[k] = some values[k] := by
  induction list generalizing values with
  | nil =>
    cases succeeds
    exact ⟨rfl, fun k bound => absurd bound (Nat.not_lt_zero k)⟩
  | cons _ _ ih =>
    rw [List.mapM_cons] at succeeds
    obtain ⟨_, found, rest⟩ := Option.bind_eq_some_iff.mp succeeds
    obtain ⟨_, later, same⟩ := Option.bind_eq_some_iff.mp rest
    cases same
    obtain ⟨length, each⟩ := ih later
    refine ⟨by simp [length], fun k bound bound' => ?_⟩
    cases k with
    | zero => exact found
    | succ k => exact each k (Nat.lt_of_succ_lt_succ bound) (Nat.lt_of_succ_lt_succ bound')

lemma readUser_bytes {ttbr : Ttbr} {src len : Nat}
    (read : readUser ttbr mem src len = some (some bytes)) :
    bytes.length = len ∧
      ∀ (k : Nat) (bound : k < bytes.length), loadByte ttbr mem (src + k) = some bytes[k] := by
  rw [readUser] at read
  split at read
  · rename_i empty
    cases read
    exact ⟨empty.symm, fun k bound => absurd bound (Nat.not_lt_zero k)⟩
  split at read
  · cases read
  · cases read
  obtain ⟨values, all, same⟩ := Option.map_eq_some_iff.mp read
  cases same
  obtain ⟨length, each⟩ := mapM_get all
  rw [List.length_range] at length
  refine ⟨length, fun k bound => ?_⟩
  have value := each k (by rw [List.length_range]; omega) bound
  rwa [List.getElem_range] at value

lemma payload_new (opcode : UInt16) (tag : UInt32) {data : List Byte} (short : data.length ≤ msgMax)
    (cap : UInt64) :
    payload (.new opcode tag (data.map UInt8.ofBitVec)) cap = data.take cap.toNat := by
  have max : msgMax = 256 := rfl
  have len : (Message.new opcode tag (data.map UInt8.ofBitVec)).len.toNat = data.length := by
    rw [Message.new, UInt16.toNat_ofNat', List.length_map]
    omega
  rw [payload, len]
  apply List.ext_getElem
  · simp only [List.length_map, List.length_take, Vector.length_toList]
    omega
  · intro k left right
    simp only [List.length_take] at right
    have within : k < data.length := by omega
    simp [Message.new, within]

/-! ## From buffer to buffer -/

/-- The roots with which a process's memory is copied. -/
def ttbr (env : Env n) : Ttbr := ⟨env.space.root, env.kernel⟩

/-- What a receive has done that took the message of a send. -/
structure Delivered (buf len opcode tag : UInt64) (sender : Env n) (dst cap : UInt64)
    (receiver : Env n) (registers : UInt64 × UInt64 × UInt64) (after : Env n) : Prop where
  opcode : registers.1.toNat = opcode.toNat % 2 ^ 16
  count : registers.2.1.toNat = min (min len.toNat 256) cap.toNat
  tag : registers.2.2.toNat = tag.toNat % 2 ^ 32
  copied : ∀ k < registers.2.1.toNat, ∃ byte,
    loadByte (ttbr sender) sender.phys.mem (buf.toNat + k) = some byte ∧
      loadByte (ttbr receiver) after.phys.mem (dst.toNat + k) = some byte
  kept : ∀ page offset, offset < pageSize4K → (∀ k < registers.2.1.toNat,
      place receiver.phys.mem receiver.space.root (dst.toNat + k) ≠ some (page, offset)) →
    byteAt (after.phys.mem page) offset = byteAt (receiver.phys.mem page) offset

lemma giveMessage_delivers {buf len opcode tag dst cap : UInt64} {sender receiver middle : Env n}
    (read : sender.readMessage buf len opcode tag = some (some msg))
    (memory : middle.space = receiver.space ∧ middle.kernel = receiver.kernel ∧ middle.phys =
      receiver.phys)
    (built : Built receiver.phys.mem receiver.space.root)
    (paged : Paged receiver.phys.mem receiver.space.root)
    (writable : ∀ k < min (min len.toNat 256) cap.toNat,
      Writable receiver.phys.mem receiver.space.root (dst.toNat + k)) :
    ∃ registers after, middle.giveMessage msg dst cap = some (registers, after) ∧
      Delivered buf len opcode tag sender dst cap receiver registers after := by
  obtain ⟨found, reads, made⟩ := Option.map_eq_some_iff.mp read
  obtain ⟨data, rfl, rfl⟩ := Option.map_eq_some_iff.mp made
  obtain ⟨length, loads⟩ := readUser_bytes reads
  have max : msgMax = 256 := rfl
  have bytes := payload_new opcode.toUInt16 tag.toUInt32 (by omega : data.length ≤ msgMax) cap
  have count : (data.take cap.toNat).length = min (min len.toNat 256) cap.toNat := by
    rw [List.length_take, length]
    omega
  have size : pageSize4K = 4096 := rfl
  have tree : Built receiver.phys.mem (ttbr receiver).user := built
  obtain ⟨after, writes, stored, copied⟩ := writeUser_writes tree paged
    (by omega : (data.take cap.toNat).length ≤ pageSize4K) (by rw [count]; exact writable)
  have whole : (UInt64.ofNat (data.take cap.toNat).length).toNat =
    (data.take cap.toNat).length := by
    rw [UInt64.toNat_ofNat']
    omega
  refine ⟨(opcode.toUInt16.toUInt64, .ofNat (data.take cap.toNat).length, tag.toUInt32.toUInt64),
    { middle with phys := after }, ?_, by simp, whole.trans count, by simp, fun k bound => ?_,
    fun page offset below apart => ?_⟩
  · rw [ttbr] at writes
    rw [Env.giveMessage, memory.1, memory.2.1, memory.2.2, bytes, writes]
    rfl
  · rw [whole] at bound
    refine ⟨(data.take cap.toNat)[k], ?_, copied k bound⟩
    rw [List.getElem_take]
    exact loads k (by rw [List.length_take] at bound; omega)
  · rw [whole] at apart
    exact stored.kept page offset below apart

/-- A message sent by `sys_send` or `sys_reply` on a channel with any history, and taken after any
traffic by `sys_receive` once all the messages queued before it are gone, arrives: the opcode, the
tag and as many bytes as the sender gave, a message carries and the buffer holds are those of the
sender, and nothing else is written. -/
theorem message_delivered (handle buf len opcode tag : UInt64) (sender sent : Env n)
    (resumed : Option (Env n))
    (sends : Env.sysSend handle buf len opcode tag resumed sender = some (some 0, sent) ∨
      Env.sysReply handle buf len opcode tag resumed sender = some (some 0, sent))
    (ch : Fin nchannels) (named : sender.channel handle.toNat = some ch)
    (history later : List (Port.Ipc.Call × ProcId × KernSched n))
    (before : (resumed.getD sender).channels ch = (traffic .new history).1)
    (source dst cap : UInt64) (receiver : Env n) (current : receiver.tpidr.isSome)
    (shared : receiver.channel source.toNat = some ch)
    (between : receiver.channels ch = (traffic (sent.channels ch) later).1)
    (turn : (traffic (sent.channels ch) later).2 = ((resumed.getD sender).channels ch).queue.len)
    (opened : (receiver.channels ch).closed = false)
    (built : Built receiver.phys.mem receiver.space.root)
    (paged : Paged receiver.phys.mem receiver.space.root)
    (writable : ∀ k < min (min len.toNat 256) cap.toNat,
      Writable receiver.phys.mem receiver.space.root (dst.toNat + k)) :
    ∃ registers after, receiver.sysReceive source dst cap = some (registers, after) ∧
      Delivered buf len opcode tag sender dst cap receiver registers after := by
  have sound : ((resumed.getD sender).channels ch).Sound := by
    rw [before]
    exact (traffic_queue ChannelInner.new_sound history).1
  obtain ⟨replyTo, posts⟩ : ∃ replyTo,
      Env.sysPost replyTo handle buf len opcode tag resumed sender = some (some 0, sent) := by
    rcases sends with sends | replies
    · exact ⟨none, sends⟩
    · exact ⟨some tag.toUInt32, replies⟩
  rw [Env.sysPost, named] at posts
  dsimp only at posts
  split at posts
  · cases posts
  · cases (Prod.mk.inj (Option.some.inj posts)).1
  rename_i msg read
  obtain ⟨kept, queued⟩ := sendPass_ok sound posts
  have next := traffic_next kept later queued (by rw [turn, sound.formed.holds.2])
  rw [← between] at next
  have takes : Takes none source receiver ch msg :=
    ⟨current, shared, opened, next, fun taken => by cases taken.1⟩
  obtain ⟨registers, after, gives, delivered⟩ :=
    giveMessage_delivers read (passed_memory receiver none ch) built paged writable
  exact ⟨registers, after, (takes.handled dst cap).trans gives, delivered⟩

def process (phys : Phys) (channels : Channels nchannels) : Env 2 :=
  { caller with nused := 1, channels, space := { caller.space with root := 0 }, kernel := 0, phys }

lemma firstPage_tree (maps : Call.firstPage.perform 0 = some (.ok (), phys)) :
    Built phys.mem 0 ∧ Paged phys.mem 0 ∧ ¬ InTree phys.mem 0 7 := by
  have empty : Built (initEmptyRootPageTable 0 ⟨fun _ _ => 0, []⟩).mem 0 :=
    ⟨tree_empty rfl, words_empty lawful_leafy rfl⟩
  have admitted := Call.firstPage_admitted
  have taken : Call.step 0 (initEmptyRootPageTable 0 ⟨fun _ _ => 0, []⟩).mem Call.firstPage =
      some phys.mem := by
    rw [Call.step, maps]
    rfl
  obtain ⟨_, _, _, returns, touched, -, keeps⟩ :=
    mapTo_spec (admitted.callable empty.tree) Call.firstPage.va .page4K admitted.valid
      admitted.block
  obtain ⟨rfl, rfl⟩ := Prod.mk.inj (some.inj (maps.symm.trans returns))
  refine ⟨empty.step admitted taken, paged_iff.mpr (keeps NoBlock lawful_noBlock ?_ ?_),
    fun inside => ?_⟩
  · exact fun upper => absurd upper (by decide)
  · exact paged_iff.mp (paged_empty rfl)
  · rcases touched.tables 7 inside with old | new
    · exact absurd (inTree_empty rfl old) (by decide)
    · have listed : (7 : PageNo) ∈ pages Call.firstPage.phys.supply := by
        rw [touched.supply, pages_append]
        exact List.mem_append_left _ new
      exact absurd listed (by decide)

/-- A process sends itself four bytes, and receives two of them with a buffer of two. -/
theorem message_delivered_itself : ∃ phys, Call.firstPage.perform 0 = some (.ok (), phys) ∧
      ∃ sent, Env.sysSend 0 0x1000 4 7 9 none (process phys fun _ => .new) = some (some 0, sent) ∧
      ∃ registers after, (process phys sent.channels).sysReceive 0 0x1010 2 =
        some (registers, after) ∧
        Delivered 0x1000 4 7 9 (process phys fun _ => .new) 0x1010 2 (process phys sent.channels)
          registers after := by
  obtain ⟨phys, maps, sends, walks⟩ := performed_any
    (fun phys => ((Env.sysSend 0 0x1000 4 7 9 none (process phys fun _ => .new)).any fun outcome =>
        outcome.1 == some 0 && !(outcome.2.channels firstChannel).closed) = true ∧
      ((List.range 2).all fun k => (walk phys.mem 0 (ofNat 64 (0x1010 + k))).any fun found =>
        found.2.valid && found.2.accessPermission == .allRw &&
          frame found.1 found.2 (ofNat 64 (0x1010 + k)) == 7) = true)
    (show ((Call.firstPage.perform 0).any _) = true by decide +kernel)
  obtain ⟨built, paged, data⟩ := firstPage_tree maps
  obtain ⟨⟨code, sent⟩, returns, passes⟩ := (Option.any_eq_true _ _).mp sends
  simp only [Bool.and_eq_true, beq_iff_eq, Bool.not_eq_true'] at passes
  obtain ⟨rfl, opened⟩ := passes
  have writable : ∀ k < 2, Writable phys.mem 0 (0x1010 + k) := by
    intro k bound
    have found := List.all_eq_true.mp walks k (List.mem_range.mpr bound)
    obtain ⟨⟨size, entry⟩, walked, passes⟩ := (Option.any_eq_true _ _).mp found
    simp only [Bool.and_eq_true, beq_iff_eq] at passes
    obtain ⟨⟨valid, access⟩, page⟩ := passes
    refine ⟨⟨by omega, size, entry, walked, valid, by rw [access]; rfl, fun _ => access⟩, ?_⟩
    intro _ _ again
    obtain ⟨rfl, rfl⟩ := Prod.mk.inj (Option.some.inj (walked.symm.trans again))
    rwa [page]
  exact ⟨phys, maps, sent, returns, message_delivered 0 0x1000 4 7 9 (process phys fun _ => .new)
    sent
    none (.inl returns) firstChannel rfl [] [] rfl 0 0x1010 2 (process phys sent.channels) rfl rfl
      rfl
    rfl opened built paged writable⟩

end R9x.Verif.Messages
