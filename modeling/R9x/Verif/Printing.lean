import R9x.R9xStd.ConsoleClient

/-!
# What formatted output shows

A text is to be shown whole with a newline if it has at most 256 bytes, and cut off with a marker
and a newline otherwise.
-/

namespace R9x.Verif.Printing

open R9xStd.Print R9xStd.ConsoleClient
open List (append_assoc length_append length_take take_take nil_append replicate)

/-- A text is shown as it should be, without a panic. -/
def Faithful (text : List UInt8) (shown : Option (List UInt8)) : Prop :=
  ∃ out, shown = some out ∧ if text.length ≤ 256 then out = text ++ [newline]
    else ∃ part, part <+: text ∧ out = part ++ dots ++ [newline]

/-- The bytes of the leading pieces that fit in some room together. -/
def leading : (room : Nat) → (pieces : List (List UInt8)) → List UInt8
  | _, [] => []
  | room, piece :: pieces =>
    if piece.length ≤ room then piece ++ leading (room - piece.length) pieces else []

/-- The first 256 bytes of a text happen to end in the marker and a newline. -/
def EndsMarked (text : List UInt8) : Prop := (text.take 256).drop 252 = dots ++ [newline]

lemma leading_prefix (room : Nat) (pieces : List (List UInt8)) :
    leading room pieces <+: pieces.flatten := by
  induction pieces generalizing room with
  | nil => exact List.prefix_rfl
  | cons piece pieces ih =>
    rw [leading, List.flatten_cons]
    split
    · exact (List.prefix_append_right_inj piece).mpr (ih _)
    · exact List.nil_prefix

lemma length_leading_le (room : Nat) (pieces : List (List UInt8)) :
    (leading room pieces).length ≤ room := by
  induction pieces generalizing room with
  | nil => exact Nat.zero_le room
  | cons piece pieces ih =>
    rw [leading]
    split
    · have rest := ih (room - piece.length)
      rw [length_append]
      omega
    · exact Nat.zero_le room

/-- What a `BufWriter` is left with: the leading pieces that fit behind what is in the buffer. -/
lemma writeFmt_eq (size : Nat) (pieces : List (List UInt8)) (buf : List UInt8)
    (fits : buf.length ≤ size - 1) :
    writeFmt size pieces buf = (buf ++ leading (size - 1 - buf.length) pieces,
      decide (size - 1 < buf.length + pieces.flatten.length)) := by
  induction pieces generalizing buf with
  | nil =>
    have room : ¬ size - 1 < buf.length := by omega
    simp [writeFmt, leading, room]
  | cons piece pieces ih =>
    rw [writeFmt, leading, List.flatten_cons, length_append]
    by_cases full : size - 1 < buf.length + piece.length
    · have beyond : size - 1 < buf.length + (piece.length + pieces.flatten.length) := by omega
      rw [if_pos full, if_neg (by omega), List.append_nil, decide_eq_true beyond]
    · have rest : size - 1 - (buf ++ piece).length = size - 1 - buf.length - piece.length := by
        rw [length_append]
        omega
      rw [if_neg full, if_pos (by omega), ih (buf ++ piece) (by rw [length_append]; omega), rest,
        append_assoc, length_append, Nat.add_assoc]

lemma leading_all {room : Nat} {pieces : List (List UInt8)} (fits : pieces.flatten.length ≤ room) :
    leading room pieces = pieces.flatten := by
  induction pieces generalizing room with
  | nil => rfl
  | cons piece pieces ih =>
    rw [List.flatten_cons, length_append] at fits
    rw [leading, if_pos (by omega), List.flatten_cons, ih (by omega)]

/-- All pieces are in an empty buffer, or the leading ones and a piece did not fit. -/
lemma writeFmt_cases (room : Nat) (pieces : List (List UInt8)) :
    writeFmt (room + 1) pieces [] =
      if pieces.flatten.length ≤ room then (pieces.flatten, false)
        else (leading room pieces, true) := by
  rw [writeFmt_eq _ _ _ (Nat.zero_le _), nil_append, List.length_nil, Nat.zero_add,
    Nat.add_sub_cancel, Nat.sub_zero]
  split
  · rename_i fits
    rw [leading_all fits, decide_eq_false (by omega)]
  · rw [decide_eq_true (by omega)]

/-- A text that is printed whole, or as far as the buffer of `print.rs` goes. -/
lemma whole_iff (text : List UInt8) :
    Faithful text (some (sysPrint (text.take (bufSize - 1) ++ [newline]))) ↔
      text.length ≤ 255 ∨ 256 < text.length ∧ EndsMarked text := by
  constructor
  · rintro ⟨out, same, shows⟩
    cases same
    by_cases short : text.length ≤ 255
    · exact .inl short
    right
    have cut : sysPrint (text.take (bufSize - 1) ++ [newline]) = text.take 256 := by
      rw [sysPrint, List.take_append_of_le_length (by rw [length_take, bufSize]; omega), take_take]
      rfl
    rw [cut] at shows
    split at shows
    · have length := congrArg List.length shows
      rw [length_take, length_append, List.length_singleton] at length
      omega
    obtain ⟨part, -, shows⟩ := shows
    have length := congrArg List.length shows
    simp only [length_take, length_append, dots, List.length_cons, List.length_nil] at length
    refine ⟨by omega, ?_⟩
    rw [EndsMarked, shows, append_assoc, List.drop_left' (by omega)]
  · rintro (short | ⟨long, marked⟩)
    · refine ⟨_, rfl, ?_⟩
      rw [if_pos (by omega), sysPrint, List.take_of_length_le, List.take_of_length_le]
      · rw [bufSize]
        omega
      · rw [length_append, length_take, List.length_singleton]
        omega
    · refine ⟨_, rfl, ?_⟩
      rw [if_neg (by omega), sysPrint, List.take_append_of_le_length
        (by rw [length_take, bufSize]; omega), take_take]
      refine ⟨text.take 252, List.take_prefix _ _, ?_⟩
      rw [append_assoc, ← marked]
      exact (List.take_append_drop 252 (text.take 256)).symm.trans (by rw [take_take]; rfl)

/-- The marker takes the place of the last three bytes, if there are three. -/
lemma copyFromSlice_dots (buf : List UInt8) : copyFromSlice buf (buf.length - 3) buf.length dots =
      if 3 ≤ buf.length then some (buf.take (buf.length - 3) ++ dots) else none := by
  rw [copyFromSlice]
  by_cases three : 3 ≤ buf.length
  · rw [if_pos three, if_pos ⟨Nat.sub_le _ _, by change _ = 3; omega⟩, List.drop_length,
      List.append_nil]
  rw [if_neg three, if_neg]
  rintro ⟨-, same⟩
  change _ = 3 at same
  omega

lemma faithful_marked {text part : List UInt8} (long : 256 < text.length) (begins : part <+: text) :
    Faithful text (some (part.take (part.length - 3) ++ dots ++ [newline])) := by
  refine ⟨_, rfl, ?_⟩
  rw [if_neg (by omega)]
  exact ⟨_, (List.take_prefix _ _).trans begins, rfl⟩

/-- The kernel cuts off the newline of a marked text of more than 255 bytes: what it prints ends in
a byte of the marker. -/
lemma not_faithful_cut {text part : List UInt8} (long : 256 < text.length)
    (large : 256 ≤ part.length)
    (fits : part.length ≤ 258) :
    ¬ Faithful text (some (sysPrint (part.take (part.length - 3) ++ dots ++ [newline]))) := by
  rintro ⟨out, same, shows⟩
  cases same
  rw [if_neg (by omega)] at shows
  obtain ⟨other, -, shows⟩ := shows
  have length := congrArg List.length shows
  simp only [sysPrint, dots, length_take, length_append, List.length_cons,
    List.length_nil] at length
  have last := congrArg (fun bytes => bytes[255]?) shows
  have front : (part.take (part.length - 3)).length = part.length - 3 := by
    rw [length_take]
    omega
  have theirs : (other ++ dots ++ [newline])[255]? = some newline := by
    rw [List.getElem?_append_right (by rw [length_append, dots, List.length_cons]; simp; omega)]
    have zero : 255 - (other ++ dots).length = 0 := by
      rw [length_append]
      change 255 - (other.length + 3) = 0
      omega
    rw [zero]
    rfl
  have ours : (sysPrint (part.take (part.length - 3) ++ dots ++ [newline]))[255]? = some 46 := by
    rw [sysPrint, List.getElem?_take_of_lt (by decide), append_assoc,
      List.getElem?_append_right (by omega), front]
    have place : 255 - (part.length - 3) = 0 ∨ 255 - (part.length - 3) = 1 ∨
        255 - (part.length - 3) = 2 := by omega
    rcases place with place | place | place <;> rw [place] <;> rfl
  rw [ours, theirs] at last
  cases last

lemma printStr_iff (text : List UInt8) :
    Faithful text (some (printStr text)) ↔ text.length ≤ 255 ∨ 256 < text.length ∧
      EndsMarked text := by
  have cut : text.take (min text.length (bufSize - 1)) = text.take (bufSize - 1) := by
    rw [Nat.min_comm, ← take_take, List.take_length]
  rw [← whole_iff, printStr, cut]

lemma printFmt_iff (pieces : List (List UInt8)) : Faithful pieces.flatten (printFmt pieces) ↔
      if pieces.flatten.length ≤ 258 then
        pieces.flatten.length ≤ 255 ∨ 256 < pieces.flatten.length ∧ EndsMarked pieces.flatten
      else 3 ≤ (leading 258 pieces).length ∧ (leading 258 pieces).length ≤ 255 := by
  have writes := writeFmt_cases 258 pieces
  by_cases few : pieces.flatten.length ≤ 258
  · rw [if_pos few] at writes ⊢
    have shown : printFmt pieces = some (printStr pieces.flatten) := by
      simp only [printFmt, bufSize, writes, Bool.false_eq_true, if_false, Option.map_some]
      rfl
    rw [shown, printStr_iff]
  rw [if_neg few] at writes ⊢
  have begins := leading_prefix 258 pieces
  have fits := length_leading_le 258 pieces
  generalize leading 258 pieces = part at writes begins fits ⊢
  have stop : min part.length (bufSize - 1) = part.length := Nat.min_eq_left fits
  by_cases three : 3 ≤ part.length
  · have all : (part.take (part.length - 3) ++ dots).take part.length =
        part.take (part.length - 3) ++ dots := by
      apply List.take_of_length_le
      rw [length_append, length_take]
      change _ + 3 ≤ _
      omega
    have shown : printFmt pieces =
        some (sysPrint (part.take (part.length - 3) ++ dots ++ [newline])) := by
      simp only [printFmt, show bufSize = 258 + 1 from rfl, writes] at stop ⊢
      simp only [if_true, stop, copyFromSlice_dots, if_pos three, Option.map_some, all]
    rw [shown]
    by_cases small : part.length ≤ 255
    · refine iff_of_true ?_ ⟨three, small⟩
      have whole : sysPrint (part.take (part.length - 3) ++ dots ++ [newline]) =
          part.take (part.length - 3) ++ dots ++ [newline] := by
        apply List.take_of_length_le
        rw [length_append, length_append, length_take]
        change _ + 3 + 1 ≤ _
        omega
      rw [whole]
      exact faithful_marked (by omega) begins
    · exact iff_of_false (not_faithful_cut (by omega) (by omega) fits) fun bounds => small bounds.2
  have panics : printFmt pieces = none := by
    simp only [printFmt, show bufSize = 258 + 1 from rfl, writes] at stop ⊢
    simp only [if_true, stop, copyFromSlice_dots, if_neg three, Option.map_none]
  rw [panics]
  refine iff_of_false ?_ fun bounds => three bounds.1
  rintro ⟨_, none, -⟩
  cases none

lemma line_iff (pieces : List (List UInt8)) : Faithful pieces.flatten (line pieces) ↔
      pieces.flatten.length ≤ 256 ∨ 3 ≤ (leading 256 pieces).length := by
  have writes := writeFmt_cases 256 pieces
  by_cases few : pieces.flatten.length ≤ 256
  · rw [if_pos few] at writes
    have shown : line pieces = some (pieces.flatten ++ [newline]) := by
      simp only [line, writes, Bool.false_eq_true, if_false, Option.map_some]
    refine iff_of_true ⟨_, shown, ?_⟩ (.inl few)
    rw [if_pos few]
  rw [if_neg few] at writes
  have begins := leading_prefix 256 pieces
  generalize leading 256 pieces = part at writes begins ⊢
  by_cases three : 3 ≤ part.length
  · refine iff_of_true ?_ (.inr three)
    have shown : line pieces = some (part.take (part.length - 3) ++ dots ++ [newline]) := by
      simp only [line, writes, if_true, if_neg (Nat.not_lt.mpr three), copyFromSlice_dots,
        if_pos three, Option.map_some]
    rw [shown]
    exact faithful_marked (by omega) begins
  have panics : line pieces = none := by
    simp only [line, writes, if_true, if_pos (Nat.lt_of_not_le three), Option.map_none]
  rw [panics]
  refine iff_of_false ?_ fun either => either.elim few three
  rintro ⟨_, none, -⟩
  cases none

/-! ## Through the console server -/

section

variable {ω : Type} {peers : Peers ω} {client after : Client ω} {console : Console}

/-- The bytes that the console server writes to the terminal for the messages it has been sent. -/
def shown (console : Console) (sent : List Sent) : List UInt8 :=
  (sent.filter fun message => message.handle = console.inH ∧ message.opcode = opWrite).flatMap
    fun message => message.payload.drop 4

/-- Every send is taken and every receive returns `R_OK`, to a resolve with a pair of handles. -/
structure Answering (peers : Peers ω) : Prop where
  sends : ∀ handle opcode payload world, (peers.send handle opcode payload world).1 = 0
  receives : ∀ handle world, (peers.receive handle world).1.1 = rOk
  resolves : ∀ handle payload replyH world,
    (peers.receive replyH (peers.send handle opResolve payload world).2).1.2.length = 8

/-- What a request adds to the messages that were sent: at most the one it is. -/
lemma request_sent (peers : Peers ω) (client : Client ω) (handle : UInt64) (opcode : UInt16)
    (payload : List UInt8) (replyH : UInt64) :
    let outcome := request peers handle opcode payload replyH client
    outcome.2.cache = client.cache ∧
      (outcome.2.sent = client.sent ++ [⟨handle, opcode, payload⟩] ∨
        outcome.2.sent = client.sent ∧ outcome.1 = .error .ipc) := by
  dsimp only
  rw [request]
  dsimp only
  split
  · exact ⟨rfl, .inr ⟨rfl, rfl⟩⟩
  · split
    · exact ⟨rfl, .inl rfl⟩
    · exact ⟨rfl, .inl rfl⟩

lemma shown_append (console : Console) (sent : List Sent) (data field : List UInt8)
    (four : field.length = 4) :
    shown console (sent ++ [⟨console.inH, opWrite, field ++ data⟩]) =
      shown console sent ++ data := by
  rw [shown, List.filter_append, List.flatMap_append]
  simp [shown, List.drop_left' four]

/-- The console shows a prefix of what is written, and all of it if the write succeeds. -/
lemma writeChunks_shows (peers : Peers ω) (console : Console) (rest : List UInt8)
    (client : Client ω) :
    let outcome := writeChunks peers console rest client
    ∃ part, part <+: rest ∧ shown console outcome.2.sent = shown console client.sent ++ part ∧
      (outcome.1 = .ok () → part = rest) := by
  dsimp only
  induction length : rest.length using Nat.strong_induction_on generalizing rest client with
  | _ size ih =>
  cases rest with
  | nil =>
    rw [writeChunks]
    exact ⟨[], List.nil_prefix, (List.append_nil _).symm, fun _ => rfl⟩
  | cons byte more =>
  rw [writeChunks]
  generalize whole : byte :: more = rest at length ⊢
  have positive : 0 < rest.length := by
    rw [← whole]
    exact Nat.succ_pos _
  have bound : 0 < chunk := by decide
  have four : (Cmd.u32ToLe console.replyH.toUInt32).length = 4 := rfl
  have adds := (request_sent peers client console.inH opWrite
    (Cmd.u32ToLe console.replyH.toUInt32 ++ rest.take (min rest.length chunk)) console.replyH).2
  generalize request peers console.inH opWrite
    (Cmd.u32ToLe console.replyH.toUInt32 ++ rest.take (min rest.length chunk)) console.replyH client
    = outcome at adds ⊢
  obtain ⟨answer, middle⟩ := outcome
  have sent : ∃ part, part <+: rest.take (min rest.length chunk) ∧
      shown console middle.sent = shown console client.sent ++ part ∧
      (∀ op, answer = .ok op → part = rest.take (min rest.length chunk)) := by
    rcases adds with taken | ⟨same, failed⟩
    · exact ⟨_, List.prefix_rfl, by rw [taken, shown_append _ _ _ _ four], fun _ _ => rfl⟩
    · refine ⟨[], List.nil_prefix, by rw [same, List.append_nil], fun op good => ?_⟩
      cases failed.symm.trans good
  obtain ⟨part, begins, shows, complete⟩ := sent
  have early : part <+: rest := begins.trans (List.take_prefix _ _)
  cases answer with
  | error => exact ⟨part, early, shows, by simp⟩
  | ok answer =>
    obtain ⟨op, _⟩ := answer
    dsimp only
    split
    · exact ⟨part, early, shows, by simp⟩
    have shorter : (rest.drop (min rest.length chunk)).length < size := by
      rw [List.length_drop]
      omega
    obtain ⟨later, begins', shows', complete'⟩ := ih _ shorter _ middle rfl
    obtain rfl := complete _ rfl
    refine ⟨rest.take (min rest.length chunk) ++ later, ?_, ?_, fun good => ?_⟩
    · have joined := (List.prefix_append_right_inj (rest.take (min rest.length chunk))).mpr begins'
      rwa [List.take_append_drop] at joined
    · rw [shows', shows, append_assoc]
    · rw [complete' good, List.take_append_drop]

lemma writeChunks_cache (peers : Peers ω) (console : Console) (rest : List UInt8)
    (client : Client ω) :
    (writeChunks peers console rest client).2.cache = client.cache := by
  induction length : rest.length using Nat.strong_induction_on generalizing rest client with
  | _ size ih =>
  cases rest with
  | nil => rw [writeChunks]
  | cons byte more =>
  rw [writeChunks]
  have shorter : ((byte :: more).drop (min (byte :: more).length chunk)).length < size := by
    rw [List.length_drop, ← length, List.length_cons, chunk]
    omega
  have kept := (request_sent peers client console.inH opWrite
    (Cmd.u32ToLe console.replyH.toUInt32 ++ (byte :: more).take (min (byte :: more).length chunk))
    console.replyH).1
  split
  · rename_i asked
    rw [asked] at kept
    exact kept
  · rename_i asked
    rw [asked] at kept
    split
    · exact kept
    · exact (ih _ shorter _ _ rfl).trans kept

/-- A resolve that succeeds is cached, and writes nothing to the terminal. -/
lemma resolve_shows (peers : Peers ω) (client : Client ω) :
    match resolve peers client with
    | (.ok console, after) => after.cache = some console ∧
        shown console after.sent = shown console client.sent
    | (.error _, after) => after.cache = none := by
  obtain ⟨_ | console, before, world⟩ := client
  · rw [resolve]
    obtain ⟨kept, adds⟩ := request_sent peers ⟨none, before, (peers.createChan world).2⟩ peers.nsIn
      opResolve (consoleName ++ Cmd.u32ToLe (peers.createChan world).1.toUInt32)
      (peers.createChan world).1
    dsimp only at kept adds ⊢
    generalize request peers peers.nsIn opResolve _ _ _ = outcome at kept adds ⊢
    obtain ⟨answer, middle⟩ := outcome
    cases answer with
    | error => exact kept
    | ok answer =>
      obtain ⟨op, data⟩ := answer
      by_cases refused : op ≠ rOk ∨ data.length ≠ 8
      · simp only [if_pos refused]
        exact kept
      simp only [if_neg refused, true_and]
      rcases adds with sent | ⟨-, failed⟩
      · rw [sent, shown, List.filter_append, List.flatMap_append]
        simp [shown, opResolve, opWrite]
      · cases failed
  · rw [resolve]
    exact ⟨rfl, rfl⟩

lemma request_answering (answering : Answering peers) (handle : UInt64) (opcode : UInt16)
    (payload : List UInt8) (replyH : UInt64) (client : Client ω) :
    (request peers handle opcode payload replyH client).1 =
      .ok (peers.receive replyH (peers.send handle opcode payload client.world).2).1 := by
  rw [request]
  dsimp only
  rw [if_neg (by rw [answering.sends]; simp), if_neg (by rw [answering.receives]; decide)]

lemma writeChunks_answering (answering : Answering peers) (rest : List UInt8) (client : Client ω) :
    (writeChunks peers console rest client).1 = .ok () := by
  induction length : rest.length using Nat.strong_induction_on generalizing rest client with
  | _ size ih =>
  cases rest with
  | nil => rw [writeChunks]
  | cons byte more =>
  rw [writeChunks]
  have shorter : ((byte :: more).drop (min (byte :: more).length chunk)).length < size := by
    rw [List.length_drop, ← length, List.length_cons, chunk]
    omega
  have answered := request_answering answering console.inH opWrite
    (Cmd.u32ToLe console.replyH.toUInt32 ++ (byte :: more).take (min (byte :: more).length chunk))
    console.replyH client
  split
  · rename_i asked
    rw [asked] at answered
    cases answered
  · rename_i op _ _ asked
    rw [asked] at answered
    have good : op = rOk := by
      rw [← answering.receives console.replyH
        (peers.send console.inH opWrite _ client.world).2, ← Except.ok.inj answered]
    rw [if_neg (not_not.mpr good)]
    exact ih _ shorter _ _ rfl

lemma resolve_answering (answering : Answering peers) (client : Client ω) :
    ∃ console after, resolve peers client = (.ok console, after) := by
  obtain ⟨_ | console, before, world⟩ := client
  · rw [resolve]
    have answered := request_answering answering peers.nsIn opResolve
      (consoleName ++ Cmd.u32ToLe (peers.createChan world).1.toUInt32)
      (peers.createChan world).1 ⟨none, before, (peers.createChan world).2⟩
    dsimp only at answered ⊢
    generalize request peers peers.nsIn opResolve _ _ _ = outcome at answered ⊢
    obtain ⟨answer, middle⟩ := outcome
    obtain rfl : answer = _ := answered
    have good := answering.receives (peers.createChan world).1
      (peers.send peers.nsIn opResolve
        (consoleName ++ Cmd.u32ToLe (peers.createChan world).1.toUInt32)
        (peers.createChan world).2).2
    have pair := answering.resolves peers.nsIn
      (consoleName ++ Cmd.u32ToLe (peers.createChan world).1.toUInt32) (peers.createChan world).1
      (peers.createChan world).2
    simp only [good, pair, ne_eq, not_true_eq_false, or_self, if_false]
    exact ⟨_, _, rfl⟩
  · exact ⟨console, _, rfl⟩

/-- What the console shows of a `println`, unless it panics. -/
def printed (peers : Peers ω) (pieces : List (List UInt8)) (client : Client ω) :
    Option (List UInt8) :=
  (println peers pieces client).map fun outcome =>
    outcome.2.cache.elim [] fun console => shown console outcome.2.sent

/-- A `println` of a client that has sent nothing shows a prefix of its line, and all of it if it
succeeds. -/
lemma println_shows (silent : client.sent = []) {pieces : List (List UInt8)}
    {result : Except ConsoleError Unit}
    (returns : println peers pieces client = some (result, after)) :
    ∃ data out, line pieces = some data ∧ printed peers pieces client = some out ∧ out <+: data ∧
      (result = .ok () → out = data) := by
  obtain ⟨data, made, writes⟩ := Option.map_eq_some_iff.mp returns
  refine ⟨data, _, made, by rw [printed, returns, Option.map_some], ?_⟩
  have first := resolve_shows peers client
  rw [write] at writes
  cases resolved : resolve peers client with
  | mk answer middle =>
    rw [resolved] at first writes
    cases answer with
    | error =>
      cases writes
      dsimp only at first
      rw [first]
      exact ⟨List.nil_prefix, by simp⟩
    | ok console =>
      dsimp only at first writes
      have cached := writeChunks_cache peers console data middle
      obtain ⟨part, begins, shows, complete⟩ := writeChunks_shows peers console data middle
      rw [writes] at cached shows complete
      rw [first.2, silent] at shows
      dsimp only at cached shows complete
      rw [cached, first.1]
      change shown console after.sent <+: data ∧ (result = .ok () → shown console after.sent = data)
      rw [shows]
      exact ⟨begins, complete⟩

/-- With peers that answer, the console shows the line. -/
lemma printed_answering (answering : Answering peers) (silent : client.sent = [])
    (pieces : List (List UInt8)) : printed peers pieces client = line pieces := by
  cases made : line pieces with
  | none => rw [printed, println, made, Option.map_none, Option.map_none]
  | some data =>
    have returns : println peers pieces client = some (write peers data client) := by
      rw [println, made, Option.map_some]
    have succeeds : (write peers data client).1 = .ok () := by
      obtain ⟨console, middle, resolved⟩ := resolve_answering answering client
      rw [write, resolved]
      exact writeChunks_answering answering data middle
    obtain ⟨_, _, made', shows, -, complete⟩ := println_shows silent returns
    cases made.symm.trans made'
    rw [shows, complete succeeds]

end

/-- Peers that take every message and answer every one with eight bytes. -/
def obliging : Peers Unit where
  nsIn :=
  1
  createChan world := (2, world)
  send _ _ _ world := (0, world)
  receive _ world := ((rOk, replicate 8 0), world)

end R9x.Verif.Printing
