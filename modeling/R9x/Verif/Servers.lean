import R9x.Cmd.Servers
import R9x.Lib.Run

/-!
# Servers under any messages

A server is sent messages of any opcode, tag and bytes, and its receive may return an error.
-/

namespace R9x.Verif.Servers

open Lib Cmd

variable {ω : Type}

/-! ## Requests and runs -/

/-- The devices come back, and leave it open whether a reply does. -/
structure Responsive (world : World ω) : Prop where
  trace : ∀ byte state, ∃ after, world.trace byte state = some after ∧
    ∀ handle, world.replies handle after = world.replies handle state
  mbox : ∀ request buffer state, ∃ answer after, world.mbox request buffer state =
    some (answer, after) ∧
    ∀ handle, world.replies handle after = world.replies handle state

/-- The payload has the fields that the server reads. -/
def Reads (server : Server) (arrival : Arrival) : Prop :=
  match server with
  | .nameserver =>
    4 ≤ arrival.data.length ∧ (arrival.opcode = 0 → 12 ≤ arrival.data.length)
  | .console => True
  | .mailbox _ _ =>
    (requestOp arrival = 0 → 14 ≤ arrival.data.length) ∧
    (requestOp arrival = 1 → 6 ≤ arrival.data.length)

instance (server : Server) (arrival : Arrival) : Decidable (Reads server arrival) :=
  match server with
  | .nameserver => inferInstanceAs (Decidable (_ ∧ _))
  | .console => inferInstanceAs (Decidable True)
  | .mailbox _ _ => inferInstanceAs (Decidable (_ ∧ _))

/-- The handle on which a server replies to an arrival; the console server drops a message without
one. -/
def replyHandle (server : Server) (arrival : Arrival) : Option UInt64 :=
  match server with
  | .nameserver => some (u32FromLe (arrival.data.drop (arrival.data.length - 4))).toUInt64
  | .console =>
    if arrival.data.length < 4 then none else some (u32FromLe (arrival.data.take 4)).toUInt64
  | .mailbox outH _ => some outH

/-- The payload has the fields that the server reads, and the reply comes back. -/
def Survives (world : World ω) (server : Server) (arrival : Arrival) (state : ω) : Prop :=
  Reads server arrival ∧ (replyHandle server arrival).all fun handle => world.replies handle state

instance (world : World ω) (server : Server) (arrival : Arrival) (state : ω) :
    Decidable (Survives world server arrival state) := inferInstanceAs (Decidable (_ ∧ _))

/-- The requests of a server's protocol: a known verb with its fields. -/
def WellFormed (server : Server) (arrival : Arrival) : Prop :=
  match server with
  | .nameserver =>
    arrival.opcode = 0 ∧ 12 ≤ arrival.data.length ∨
      (arrival.opcode = 1 ∨ arrival.opcode = 2) ∧ 4 ≤ arrival.data.length
  | .console => arrival.opcode = 0 ∧ 4 ≤ arrival.data.length
  | .mailbox _ _ =>
    requestOp arrival = 0 ∧ 14 ≤ arrival.data.length ∨ requestOp arrival = 1 ∧
      6 ≤ arrival.data.length

/-- A server in its loop, or one that has left it. -/
inductive Status (ω : Type) where
  | serving (kept : Kept ω)
  | stopped

/-- The server is in its receive. -/
def Serves : Status ω → Prop
  | .serving _ => True
  | .stopped => False

/-- A turn from receive to receive, or to the end of the loop. -/
def Turn.status : Turn ω → Status ω
  | .again after => .serving after
  | _ => .stopped

/-- A message or an error arrives. -/
def step (world : World ω) (server : Server) : Status ω → Arrival → Option (Status ω)
  | .stopped, _ => some .stopped
  | .serving kept, arrival => some (Turn.status (server.turn world arrival kept))

/-- A malformed request at a server in its loop changes neither the table nor the buffer. -/
def Harmless (world : World ω) (server : Server) (status : Status ω) (arrival : Arrival) : Prop :=
  ∀ kept after, status = .serving kept → ¬ WellFormed server arrival →
    server.turn world arrival kept = .again after →
    after.table = kept.table ∧ after.buffer = kept.buffer

/-- A server in its loop survives the arrival. -/
def Admits (world : World ω) (server : Server) : Status ω → Arrival → Prop
  | .serving kept, arrival => Survives world server arrival kept.world
  | .stopped, _ => False

instance (world : World ω) (server : Server) :
    (status : Status ω) → (arrival : Arrival) → Decidable (Admits world server status arrival)
  | .serving _, _ => inferInstanceAs (Decidable (Survives _ _ _ _))
  | .stopped, _ => inferInstanceAs (Decidable False)

/-! ## The calls of a turn -/

section

variable {world : World ω} {arrival : Arrival} {kept after : Kept ω} {handle : UInt64}
  {opcode : UInt16} {tag : UInt32} {payload : List UInt8}

lemma replyThen_serves_iff {kept : Kept ω} :
    Serves (Turn.status (replyThen world handle opcode tag payload kept)) ↔
      world.replies handle kept.world := by
  unfold replyThen
  by_cases back : world.replies handle kept.world
  · rw [if_pos back]
    exact iff_of_true trivial back
  rw [if_neg back]
  exact iff_of_false id back

lemma replyThen_keeps (replied : replyThen world handle opcode tag payload kept = .again after) :
    after.table = kept.table ∧ after.buffer = kept.buffer := by
  unfold replyThen at replied
  split at replied
  · cases replied
    exact ⟨rfl, rfl⟩
  · cases replied

lemma traceAll_back (responsive : Responsive world) (bytes : List UInt8) (state : ω) :
    ∃ after, traceAll world bytes state = some after ∧
      ∀ handle, world.replies handle after = world.replies handle state := by
  induction bytes generalizing state with
  | nil => exact ⟨state, rfl, fun _ => rfl⟩
  | cons byte _ ih =>
    obtain ⟨next, traced, same⟩ := responsive.trace byte state
    obtain ⟨after, rest, later⟩ := ih next
    rw [traceAll, traced]
    exact ⟨after, rest, fun handle => (later handle).trans (same handle)⟩

lemma getProperty_back (responsive : Responsive world) (bufPa : UInt64) (tagId : UInt32)
    (buffer : Buffer) (state : ω) :
    ∃ value answer after, getProperty world bufPa tagId buffer state = some (value, answer, after) ∧
      ∀ handle, world.replies handle after = world.replies handle state := by
  unfold getProperty
  dsimp only
  generalize writeWords buffer _ = written
  obtain ⟨answer, after, answered, same⟩ := responsive.mbox _ written state
  rw [mboxRequest, answered]
  exact ⟨answer 5, answer, after, rfl, same⟩

lemma configureFramebuffer_back (responsive : Responsive world) (bufPa : UInt64)
    (width height bpp : UInt32) (buffer : Buffer) (state : ω) :
    ∃ found answer after, configureFramebuffer world bufPa width height bpp buffer state =
        some (found, answer, after) ∧
      ∀ handle, world.replies handle after = world.replies handle state := by
  unfold configureFramebuffer
  dsimp only
  generalize writeWords buffer _ = written
  obtain ⟨middle, next, first, same⟩ := responsive.mbox _ written state
  rw [mboxRequest, first, Option.bind_some]
  generalize writeWords middle _ = rewritten
  obtain ⟨answer, after, second, later⟩ := responsive.mbox _ rewritten next
  rw [mboxRequest, second]
  exact ⟨_, answer, after, rfl, fun handle => (later handle).trans (same handle)⟩

/-! ## The nameserver -/

variable {op : UInt16}

lemma dispatch_isSome {table : BindTable} (channel : 4 ≤ payload.length) :
    (dispatch op payload table).isSome ↔ (op = 0 → 12 ≤ payload.length) := by
  have cut := checkedSub_of_le channel
  unfold dispatch
  by_cases bind : op = 0
  · simp [bind, checkedSub]
  by_cases resolve : op = 1
  · simp [resolve, cut]
  by_cases unbind : op = 2
  · simp [unbind, cut]
  · simp [bind, resolve, unbind]

lemma dispatch_unknown (bind : op ≠ 0) (resolve : op ≠ 1) (unbind : op ≠ 2) (payload : List UInt8)
    (table : BindTable) : dispatch op payload table = some ((rEnoent, none), table) := by
  rw [dispatch, if_neg bind, if_neg resolve, if_neg unbind]

lemma nameserver_serves_iff : Serves (Turn.status (nameserver world arrival kept)) ↔
      Survives world .nameserver arrival kept.world := by
  unfold nameserver
  by_cases channel : 4 ≤ arrival.data.length
  · have fails : (dispatch arrival.opcode arrival.data kept.table).isSome ↔ _ :=
      dispatch_isSome channel
    simp only [checkedSub_of_le channel, Survives, Reads, replyHandle, channel, true_and, ← fails]
    cases dispatched : dispatch arrival.opcode arrival.data kept.table with
    | none => exact iff_of_false id fun survives => nomatch survives.1
    | some =>
      rw [replyThen_serves_iff]
      simp
  have short : checkedSub arrival.data.length 4 = none := if_neg channel
  simp only [short]
  exact iff_of_false id fun survives => channel survives.1.1

lemma nameserver_keeps (malformed : ¬ WellFormed .nameserver arrival)
    (returned : nameserver world arrival kept = .again after) :
    after.table = kept.table ∧ after.buffer = kept.buffer := by
  unfold nameserver at returned
  by_cases channel : 4 ≤ arrival.data.length
  · simp only [checkedSub_of_le channel] at returned
    by_cases bind : arrival.opcode = 0
    · have short : ¬ 12 ≤ arrival.data.length := fun long => malformed (.inl ⟨bind, long⟩)
      have panics : dispatch arrival.opcode arrival.data kept.table = none := by
        rw [dispatch, if_pos bind, checkedSub, if_neg short, Option.map_none]
      rw [panics] at returned
      cases returned
    have resolve : arrival.opcode ≠ 1 := fun op => malformed (.inr ⟨.inl op, channel⟩)
    have unbind : arrival.opcode ≠ 2 := fun op => malformed (.inr ⟨.inr op, channel⟩)
    rw [dispatch_unknown bind resolve unbind] at returned
    exact replyThen_keeps returned
  have short : checkedSub arrival.data.length 4 = none := if_neg channel
  simp only [short] at returned
  cases returned

/-! ## The console server -/

lemma console_serves_iff (responsive : Responsive world) :
    Serves (Turn.status (console world arrival kept)) ↔
      Survives world .console arrival kept.world := by
  unfold console Survives replyHandle
  by_cases short : arrival.data.length < 4
  · simp only [if_pos short]
    exact iff_of_true trivial ⟨trivial, rfl⟩
  simp only [if_neg short]
  by_cases write : arrival.opcode = 0
  · obtain ⟨_, traced, same⟩ := traceAll_back responsive (arrival.data.drop 4) kept.world
    simp only [if_pos write, traced]
    rw [replyThen_serves_iff]
    simp [Reads, same]
  simp only [if_neg write]
  rw [replyThen_serves_iff]
  simp [Reads]

lemma console_keeps (returned : console world arrival kept = .again after) :
    after.table = kept.table ∧ after.buffer = kept.buffer := by
  unfold console at returned
  split at returned
  · cases returned
    exact ⟨rfl, rfl⟩
  split at returned
  · split at returned
    · cases returned
    · have keeps := replyThen_keeps returned
      exact keeps
  · exact replyThen_keeps returned

/-! ## The mailbox server -/

variable {outH bufPa : UInt64}

lemma mailbox_serves_iff (responsive : Responsive world) :
    Serves (Turn.status (mailbox world outH bufPa arrival kept)) ↔
      Survives world (.mailbox outH bufPa) arrival kept.world := by
  have survives_iff : Reads (.mailbox outH bufPa) arrival →
      (Survives world (.mailbox outH bufPa) arrival kept.world ↔ world.replies outH kept.world) :=
    fun reads => by simp [Survives, replyHandle, reads]
  unfold mailbox
  by_cases configure : requestOp arrival = 0
  · by_cases short : min arrival.data.length 64 < 14
    · simp only [if_pos configure, if_pos short]
      apply iff_of_false id
      intro survives
      have long := survives.1.1 configure
      omega
    · have verb : requestOp arrival ≠ 1 := by
        rw [configure]
        decide
      obtain ⟨found, answer, after, answered, same⟩ := configureFramebuffer_back responsive bufPa
        (requestWord arrival 2) (requestWord arrival 6)
        (requestWord arrival 10) kept.buffer kept.world
      simp only [if_pos configure, if_neg short, answered]
      rw [replyThen_serves_iff, survives_iff ⟨fun _ => by omega, fun property =>
        absurd property verb⟩]
      rw [same]
  by_cases property : requestOp arrival = 1
  · by_cases short : min arrival.data.length 64 < 6
    · simp only [if_neg configure, if_pos property, if_pos short]
      apply iff_of_false id
      intro survives
      have long := survives.1.2 property
      omega
    · obtain ⟨value, answer, after, answered, same⟩ := getProperty_back responsive bufPa
        (requestWord arrival 2) kept.buffer kept.world
      simp only [if_neg configure, if_pos property, if_neg short, answered]
      rw [replyThen_serves_iff, survives_iff ⟨fun verb => absurd verb configure, fun _ => by omega⟩]
      rw [same]
  simp only [if_neg configure, if_neg property]
  rw [replyThen_serves_iff, survives_iff ⟨fun verb => absurd verb configure, fun verb =>
    absurd verb property⟩]

lemma mailbox_keeps (malformed : ¬ WellFormed (.mailbox outH bufPa) arrival)
    (returned : mailbox world outH bufPa arrival kept = .again after) :
    after.table = kept.table ∧ after.buffer = kept.buffer := by
  unfold mailbox at returned
  by_cases configure : requestOp arrival = 0
  · have short : min arrival.data.length 64 < 14 := by
      by_contra long
      exact malformed (.inl ⟨configure, by omega⟩)
    simp only [if_pos configure, if_pos short] at returned
    cases returned
  by_cases property : requestOp arrival = 1
  · have short : min arrival.data.length 64 < 6 := by
      by_contra long
      exact malformed (.inr ⟨property, by omega⟩)
    simp only [if_neg configure, if_pos property, if_pos short] at returned
    cases returned
  simp only [if_neg configure, if_neg property] at returned
  exact replyThen_keeps returned

/-! ## Every server -/

lemma turn_serves_iff (responsive : Responsive world) (server : Server) :
    Serves (Turn.status (server.turn world arrival kept)) ↔
      Survives world server arrival kept.world := by
  cases server with
  | nameserver => exact nameserver_serves_iff
  | console => exact console_serves_iff responsive
  | mailbox => exact mailbox_serves_iff responsive

lemma harmless (world : World ω) (server : Server) (status : Status ω) (arrival : Arrival) :
    Harmless world server status arrival := by
  intro _ _ _ malformed returned
  cases server with
  | nameserver => exact nameserver_keeps malformed returned
  | console => exact console_keeps returned
  | mailbox => exact mailbox_keeps malformed returned

end

/-! ## Runs -/

lemma step_serves_iff {world : World ω} (responsive : Responsive world) {server : Server}
    {status next : Status ω} {arrival : Arrival} (serving : Serves status)
    (taken : step world server status arrival = some next) :
    Serves next ↔ Admits world server status arrival := by
  cases status with
  | serving =>
    rw [← Option.some.inj taken]
    exact turn_serves_iff responsive server
  | stopped => exact absurd serving id

/-- A server returns to its receive after every arrival, and no malformed request changes the table
or the buffer, exactly if every payload has the fields that the server reads and every reply comes
back. -/
theorem servers_serve_iff {world : World ω} (responsive : Responsive world) (server : Server)
    (kept : Kept ω) (arrivals : List Arrival) :
    Throughout (step world server) Serves (.serving kept) arrivals ∧
        Along (step world server) (Harmless world server) (.serving kept) arrivals ↔
      Along (step world server) (Admits world server) (.serving kept) arrivals := by
  have served : Throughout (step world server) Serves (.serving kept) arrivals ↔
      Along (step world server) (Admits world server) (.serving kept) arrivals :=
    throughout_iff_along
      (fun _ _ _ serving admitted taken => (step_serves_iff responsive serving taken).mpr admitted)
      (fun _ serving => serving)
      (fun _ _ _ serving taken good => (step_serves_iff responsive serving taken).mp good) trivial
  have harms : Along (step world server) (Harmless world server) (.serving kept) arrivals :=
    along_of_forall (harmless world server) (.serving kept) arrivals
  exact ⟨fun both => served.mp both.1, fun survived => ⟨served.mpr survived, harms⟩⟩

def quiet : World Unit where
  replies _ _ :=
  true
  reply _ _ _ _ _ := ()
  trace _ _ := some ()
  mbox _ buffer _ := some (buffer, ())

def fresh : Kept Unit := ⟨BindTable.new, fun _ => 0, ()⟩

/-- In the quiet world the nameserver returns to its receive after a bind of the empty name and
after an unknown verb with a reply channel. -/
theorem servers_serve_iff_quiet : Throughout (step quiet .nameserver) Serves (.serving fresh)
        [⟨0, 0, List.replicate 12 0, by decide⟩, ⟨7, 0, List.replicate 4 0, by decide⟩] ∧
      Along (step quiet .nameserver) (Harmless quiet .nameserver) (.serving fresh)
        [⟨0, 0, List.replicate 12 0, by decide⟩, ⟨7, 0, List.replicate 4 0, by decide⟩] :=
  (servers_serve_iff ⟨fun _ _ => ⟨(), rfl, fun _ => rfl⟩, fun _ _ _ => ⟨_, (), rfl, fun _ => rfl⟩⟩
    .nameserver fresh _).mpr (by decide)

/-- The nameserver panics at an empty message, at an error of the receive and at a bind of four
bytes, and the mailbox server exits at an empty message. -/
theorem servers_fall : Server.nameserver.turn quiet ⟨1, 0, [], by decide⟩ fresh = .panics ∧
      Server.nameserver.turn quiet (Arrival.error 10) fresh = .panics ∧
      Server.nameserver.turn quiet ⟨0, 0, [0, 0, 0, 0], by decide⟩ fresh = .panics ∧
      (Server.mailbox 1 0).turn quiet ⟨0, 0, [], by decide⟩ fresh = .exits 1 ∧
      ¬ Throughout (step quiet .nameserver) Serves (.serving fresh) [⟨1, 0, [], by decide⟩] ∧
      ¬ Throughout (step quiet (.mailbox 1 0)) Serves (.serving fresh) [⟨0, 0, [], by decide⟩] :=
  ⟨rfl, rfl, rfl, rfl, fun all => all.2 .stopped rfl, fun all => all.2 .stopped rfl⟩

end R9x.Verif.Servers
