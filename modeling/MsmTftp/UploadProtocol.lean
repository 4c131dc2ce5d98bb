import MsmTftp.SessionUploadEnd
import MsmTftp.StopAndWait

/-!
# An upload and its client

A session that serves a write request is put together with its client and the
network between them.  The client sends the blocks of a list under their
numbers and goes on to the next one when the current one was acknowledged; it
sends every block it has arrived at as often as it likes.  The network keeps
every packet and delivers any of them at any time, strangers send what they
like, and the file stream may fail.

With the sides exchanged this is the stop-and-wait protocol of the downloads:
no received block leaves a gap, and what was acknowledged was written.
-/

namespace MsmTftp

open TransitionSystem TransferBlocks StopAndWait

/-- A session, its client and the packets under way. -/
structure UploadLink where
  machine : Machine
  /-- The number of the block the client has arrived at. -/
  cursor : Nat
  /-- What the client has sent. -/
  offered : List Bytes
  /-- What the session has sent. -/
  answers : List Bytes
  /-- The blocks the file stream took. -/
  written : List Bytes

inductive UploadMove
  /-- A step of the session. -/
  | session (input : Input)
  /-- The client sends a block. -/
  | offer (number : Nat)
  /-- The client goes on to the next block. -/
  | advance

/-- Packets are compared by their bytes. -/
instance : LawfulBEq Bytes :=
  inferInstance

namespace UploadLink

/-- The session has accepted the request of its client. -/
def accepted (machine : Machine) : UploadLink where
  machine
  cursor := 0
  offered := []
  answers := []
  written := []

/-- What may happen to the session until it resets: from its client it receives
what the client has sent. -/
def permits (link : UploadLink) : Input → Bool
  | .complete (.received sender datagram) =>
      sender != link.machine.data.agreedRemoteEndpoint ||
        link.offered.contains datagram.bytes
  | .fire row _ => row.action != .reset
  | _ => true

/-- The client numbers its blocks from one and does not wrap around. -/
def step (blocks : List Bytes) (link : UploadLink) :
    UploadMove → Option (UploadLink × List Effect)
  | .session input =>
      if link.permits input then
        (link.machine.step input).map fun next =>
          ({ link with
              machine := next.1
              answers := link.answers ++
                (next.2.filterMap Effect.packet).map Prod.fst
              written := link.written ++ next.2.filterMap Effect.written },
            next.2)
      else none
  | .offer number =>
      if number ≤ link.cursor then
        (blockAt blocks number).map fun block =>
          ({ link with
              offered := link.offered ++
                [Packet.dataPacket (UInt16.ofNat number) block] }, [])
      else none
  | .advance =>
      if Packet.ackPacket (UInt16.ofNat link.cursor) ∈ link.answers ∧
          link.cursor < blocks.length ∧ link.cursor < 65535 then
        some ({ link with cursor := link.cursor + 1 }, [])
      else none

end UploadLink

/-- The transition system of an upload of some blocks with its client. -/
def upload (blocks : List Bytes) : System UploadLink UploadMove Effect where
  step := UploadLink.step blocks

abbrev UploadStep := Transition UploadLink UploadMove Effect

section Cases

variable {blocks : List Bytes} {link next : UploadLink} {effects : List Effect}

/-- What a step of an upload does. -/
inductive UploadCases (blocks : List Bytes) (link : UploadLink) :
    UploadMove → List Effect → UploadLink → Prop
  | session {input : Input} {machine : Machine} {effects : List Effect}
      (permitted : link.permits input = true)
      (stepped : link.machine.step input = some (machine, effects)) :
      UploadCases blocks link (.session input) effects
        { link with
          machine
          answers := link.answers ++
            (effects.filterMap Effect.packet).map Prod.fst
          written := link.written ++ effects.filterMap Effect.written }
  | offer {number : Nat} {block : Bytes} (reached : number ≤ link.cursor)
      (located : blockAt blocks number = some block) :
      UploadCases blocks link (.offer number) []
        { link with
          offered := link.offered ++
            [Packet.dataPacket (UInt16.ofNat number) block] }
  | advance
      (answered : Packet.ackPacket (UInt16.ofNat link.cursor) ∈ link.answers)
      (more : link.cursor < blocks.length) (narrow : link.cursor < 65535) :
      UploadCases blocks link .advance []
        { link with cursor := link.cursor + 1 }

theorem uploadCases {move : UploadMove}
    (stepped : link.step blocks move = some (next, effects)) :
    UploadCases blocks link move effects next := by
  cases move with
  | session input =>
      simp only [UploadLink.step, Option.ite_none_right_eq_some,
        Option.map_eq_some_iff, Prod.mk.injEq] at stepped
      obtain ⟨permitted, ⟨machine, _⟩, stepped, rfl, rfl⟩ := stepped
      exact .session permitted stepped
  | offer number =>
      simp only [UploadLink.step, Option.ite_none_right_eq_some,
        Option.map_eq_some_iff, Prod.mk.injEq] at stepped
      obtain ⟨reached, block, located, rfl, rfl⟩ := stepped
      exact .offer reached located
  | advance =>
      simp only [UploadLink.step, Option.ite_none_right_eq_some,
        Option.some.injEq, Prod.mk.injEq] at stepped
      obtain ⟨⟨answered, more, narrow⟩, rfl, rfl⟩ := stepped
      exact .advance answered more narrow

theorem UploadLink.ongoing_of_permits {input : Input} {machine after : Machine}
    (permitted : link.permits input = true) :
    ¬ Step.Fires ⟨machine, input, effects, after⟩ .reset := by
  rintro ⟨row, environment, taken, resets⟩
  have taken : input = .fire row environment := taken
  subst taken
  simp [permits, resets] at permitted

end Cases

/-- How an upload matches the stop-and-wait protocol: the blocks taken are the
blocks written. -/
structure UploadLink.Matches (config : Config) (link : UploadLink)
    (twin : Link Bytes) : Prop where
  wellFormed : link.machine.WellFormed config
  role : UploadRole link.machine.data link.machine.state
  cursor : twin.cursor = link.cursor
  taken : twin.taken = link.written
  count : link.machine.data.lastSavedBlock = link.written.length
  offered : ∀ packet ∈ link.offered, ∃ offer ∈ twin.offers,
    packet = Packet.dataPacket (UInt16.ofNat offer.1) offer.2
  answered : ∀ packet ∈ link.answers,
    Packet.opCode packet = .acknowledgment → ∃ number ∈ twin.answers,
      packet = Packet.ackPacket (UInt16.ofNat number)
  narrow : link.cursor < 65536
  heard : link.machine.tasks = [.process .packetReceived] →
    link.machine.data.hasDataReceived = true →
      link.machine.data.incoming ∈ link.offered

section Matching

variable {config : Config} {blocks : List Bytes} {link : UploadLink}
  {twin : Link Bytes}

namespace UploadLink.Matches

theorem mem_answers (same : link.Matches config twin)
    (sound : twin.Sound blocks) {number : Nat} (small : number < 65536)
    (sent : Packet.ackPacket (UInt16.ofNat number) ∈ link.answers) :
    number ∈ twin.answers := by
  obtain ⟨other, member, packet⟩ :=
    same.answered _ sent (Packet.opCode_ackPacket _)
  have held := sound.answered other member
  have behind := sound.behind
  have narrow := same.narrow
  rw [← same.cursor] at narrow
  have small' : other < 65536 := by omega
  have words := congrArg Packet.word packet
  rw [Packet.word_ackPacket, Packet.word_ackPacket] at words
  have numbers := congrArg UInt16.toNat words
  rw [UInt16.toNat_ofNat_of_lt' small, UInt16.toNat_ofNat_of_lt' small']
    at numbers
  rw [numbers]
  exact member

theorem offer (same : link.Matches config twin) {number : Nat} {block : Bytes}
    (reached : number ≤ link.cursor)
    (located : blockAt blocks number = some block) :
    ∃ more next, (protocol blocks).Run twin more next ∧
      UploadLink.Matches config
        { link with
          offered := link.offered ++
            [Packet.dataPacket (UInt16.ofNat number) block] } next := by
  rw [← same.cursor] at reached
  refine ⟨[⟨twin, .offer number, [],
      { twin with offers := twin.offers ++ [(number, block)] }⟩], _,
    ⟨rfl, ?_, rfl⟩, ?_⟩
  · simp only [System.Admits, protocol, Link.step, located, Option.map_some]
    exact if_pos reached
  · obtain ⟨wellFormed, role, cursor, taken, count, offered, answered,
      narrow, heard⟩ := same
    refine ⟨wellFormed, role, cursor, taken, count, ?_, answered, narrow, ?_⟩
    · intro packet member
      rcases List.mem_append.mp member with earlier | here
      · obtain ⟨offer, sent, packet⟩ := offered packet earlier
        exact ⟨offer, List.mem_append_left _ sent, packet⟩
      · exact ⟨(number, block), by simp, List.mem_singleton.mp here⟩
    · intro running received
      exact List.mem_append_left _ (heard running received)

theorem advance (same : link.Matches config twin)
    (sound : twin.Sound blocks)
    (answered : Packet.ackPacket (UInt16.ofNat link.cursor) ∈ link.answers)
    (more : link.cursor < blocks.length) (narrow : link.cursor < 65535) :
    ∃ moves next, (protocol blocks).Run twin moves next ∧
      UploadLink.Matches config
        { link with cursor := link.cursor + 1 } next := by
  have known := same.mem_answers sound same.narrow answered
  rw [← same.cursor] at known more
  refine ⟨[⟨twin, .advance, [], { twin with cursor := twin.cursor + 1 }⟩], _,
    ⟨rfl, if_pos ⟨.inr known, more⟩, rfl⟩, ?_⟩
  obtain ⟨wellFormed, role, cursor, taken, count, offered, answers, _,
    heard⟩ := same
  refine ⟨wellFormed, role, ?_, taken, count, offered, answers,
    Nat.succ_lt_succ narrow, heard⟩
  rw [cursor]

theorem complete (same : link.Matches config twin) {completion : Completion}
    {machine : Machine} {effects : List Effect}
    (permitted : link.permits (.complete completion) = true)
    (stepped : link.machine.step (.complete completion) =
      some (machine, effects)) :
    UploadLink.Matches config
      { link with
        machine
        answers := link.answers ++
          (effects.filterMap Effect.packet).map Prod.fst
        written := link.written ++ effects.filterMap Effect.written }
      twin := by
  obtain ⟨wellFormed, role, cursor, taken, count, offered, answered, narrow,
    heard⟩ := same
  obtain ⟨_, packets, written⟩ := silent_of_not_fire stepped (by simp)
  have after := wellFormed.step stepped
  rw [packets, written, List.map_nil, List.append_nil, List.append_nil]
  cases stepCases stepped with
  | complete settled idle started =>
      refine ⟨after, (UploadRole.start completion).mpr role, cursor, taken,
        ?_, offered, answered, narrow, ?_⟩
      · rw [← count]
        cases completion <;> rfl
      · intro running received
        cases completion with
        | received sender datagram =>
            obtain ⟨_, _, known⟩ :=
              (hasDataReceived_received sender datagram).mp received
            simp only [permits, known, bne_self_eq_false, Bool.false_or,
              List.contains_iff_mem] at permitted
            have incoming : (link.machine.data.received sender
                datagram).incoming = datagram.bytes :=
              incoming_received sender datagram
            rw [SessionData.received] at incoming
            rw [incoming]
            exact permitted
        | accepted sender datagram =>
            simp only [Completion.start] at running
            split at running <;> simp at running
        | _ => simp [Completion.start] at running

/-- A block that is saved follows those that were written. -/
theorem follows (same : link.Matches config twin)
    (sound : twin.Sound blocks)
    (running : link.machine.tasks = [.process .packetReceived])
    (received : link.machine.data.hasDataReceived = true)
    (new : link.machine.data.isOldData = false) :
    link.machine.data.receivedWord.toNat = twin.taken.length + 1 ∧
      (twin.taken.length + 1, Packet.payload link.machine.data.incoming) ∈
        twin.offers := by
  obtain ⟨⟨number, block⟩, member, packet⟩ :=
    same.offered _ (same.heard running received)
  have bound := (sound.offered _ member).1
  have ahead := sound.ahead
  have narrow := same.narrow
  rw [← same.cursor] at narrow
  have small : number < 65536 := Nat.lt_of_le_of_lt bound narrow
  simp only [SessionData.hasDataReceived, Bool.and_eq_true,
    decide_eq_true_eq] at received
  have word : link.machine.data.receivedWord.toNat = number := by
    have shown : link.machine.data.receivedWord =
        Packet.word link.machine.data.incoming :=
      Packet.word_eq_word rfl received.1.1
    rw [shown, packet, Packet.word_dataPacket,
      UInt16.toNat_ofNat_of_lt' small]
  have above : ¬ number ≤ link.machine.data.lastSavedBlock := by
    simpa [SessionData.isOldData, word] using new
  have counted : link.machine.data.lastSavedBlock = twin.taken.length := by
    rw [same.count, same.taken]
  have exact_number : number = twin.taken.length + 1 := by omega
  rw [packet, Packet.payload_dataPacket, ← exact_number]
  exact ⟨word, member⟩

/-- A received block is saved, or the stream refuses it. -/
theorem save (same : link.Matches config twin)
    (sound : twin.Sound blocks) {row : Row} {environment : Environment}
    {event : Option Event} {exitEffects effects : List Effect}
    {machine : Machine}
    (cases : FireCases link.machine row environment event exitEffects effects
      machine) (after : machine.WellFormed config)
    (saved : row.action = .writeData) :
    ∃ more next, (protocol blocks).Run twin more next ∧
      UploadLink.Matches config
        { link with
          machine
          answers := link.answers ++
            (effects.filterMap Effect.packet).map Prod.fst
          written := link.written ++ effects.filterMap Effect.written }
        next := by
  have firing := cases.firing
  rw [saved] at firing
  obtain ⟨waits, kind, target, received, new⟩ := firing.of_writeData
  have running : link.machine.tasks = [.process .packetReceived] := by
    rw [cases.running, Event.eq_packetReceived kind]
    rfl
  obtain ⟨number, offered⟩ := same.follows sound running received new
  have silent : effects.filterMap Effect.packet = [] := by
    rw [cases.packets, target, if_neg (by simp [State.operation])]
  have data_eq : machine.data =
      (writeData environment link.machine.data).1 := by
    rw [cases.data_eq (by simp [target]), saved]
    rfl
  have written := cases.written
  have role : UploadRole machine.data machine.state := by
    rw [cases.state_eq, target]
    trivial
  have idle : machine.tasks ≠ [.process .packetReceived] := by
    simp [cases.tasks_eq]
  obtain ⟨wellFormed, _, cursor, taken, count, offers, answered, narrow,
    heard⟩ := same
  rw [silent, List.map_nil, List.append_nil]
  cases takes : link.machine.data.fileStream.good &&
      environment.acceptsWrite with
  | true =>
      obtain ⟨good, succeeds⟩ := Bool.and_eq_true_iff.mp takes
      rw [if_pos ⟨saved, by simp [FileStream.write, good, succeeds]⟩]
        at written
      rw [writeData_of_good good succeeds] at data_eq
      let block := Packet.payload link.machine.data.incoming
      refine ⟨[⟨twin, .take (twin.taken.length + 1) block, [block],
        { twin with taken := twin.taken ++ [block] }⟩], _,
        ⟨rfl, if_pos ⟨offered, rfl⟩, rfl⟩, after, role, cursor, ?_, ?_,
        offers, answered, narrow, fun running => absurd running idle⟩
      · rw [written, taken]
      · rw [data_eq, written, List.length_append, ← taken]
        exact number
  | false =>
      obtain ⟨refused, _⟩ := FileStream.write_refused takes
      rw [if_neg (by simp [refused])] at written
      rw [writeData_of_refused takes] at data_eq
      rw [written, List.append_nil]
      refine ⟨[], twin, rfl, after, role, cursor, taken, ?_, offers, answered,
        narrow, fun running => absurd running idle⟩
      rw [data_eq]
      exact count

theorem pass (same : link.Matches config twin) {row : Row}
    {environment : Environment} {event : Option Event}
    {exitEffects effects : List Effect} {machine : Machine}
    (cases : FireCases link.machine row environment event exitEffects effects
      machine) (after : machine.WellFormed config)
    (ongoing : row.action ≠ .reset) (other : row.action ≠ .writeData) :
    ∃ more next, (protocol blocks).Run twin more next ∧
      UploadLink.Matches config
        { link with
          machine
          answers := link.answers ++
            (effects.filterMap Effect.packet).map Prod.fst
          written := link.written ++ effects.filterMap Effect.written }
        next := by
  have acted : UploadRole
      (row.action.run environment event link.machine.data).1 row.target :=
    same.role.fire cases.firing ongoing
  have counted :
      (row.action.run environment event link.machine.data).1.lastSavedBlock =
        link.machine.data.lastSavedBlock :=
    same.role.lastSavedBlock environment event cases.firing ongoing other
  have entered := cases.data_eq (State.ne_accepting_of_busy acted.busy)
  have written := cases.written
  rw [if_neg (by simp [other])] at written
  rw [← entered, same.count, ← same.taken] at counted
  rw [← entered, ← cases.state_eq] at acted
  have acknowledges :
      ∀ packet ∈ (effects.filterMap Effect.packet).map Prod.fst,
        Packet.opCode packet = .acknowledgment →
          packet = Packet.ackPacket (UInt16.ofNat twin.taken.length) := by
    rw [cases.packets, ← entered]
    split
    · rename_i sends
      intro packet member opcode
      have packet_eq : packet = machine.data.outgoing :=
        List.mem_singleton.mp member
      rw [packet_eq] at opcode ⊢
      rw [← cases.state_eq] at sends
      rw [acted.acknowledges sends opcode, counted]
    · simp
  have idle : machine.tasks ≠ [.process .packetReceived] := by
    simp [cases.tasks_eq]
  obtain ⟨wellFormed, role, cursor, taken, count, offers, answered, narrow,
    heard⟩ := same
  rw [written, List.append_nil]
  by_cases answers :
      ∃ packet ∈ (effects.filterMap Effect.packet).map Prod.fst,
        Packet.opCode packet = .acknowledgment
  · refine ⟨[⟨twin, .answer twin.taken.length, [],
        { twin with answers := twin.answers ++ [twin.taken.length] }⟩], _,
      ⟨rfl, if_pos (Nat.le_refl _), rfl⟩, after, acted, cursor, taken, ?_,
      offers, ?_, narrow, fun running => absurd running idle⟩
    · rw [counted, taken]
    · intro packet member opcode
      rcases List.mem_append.mp member with earlier | here
      · obtain ⟨number, held, packet_eq⟩ := answered packet earlier opcode
        exact ⟨number, List.mem_append_left _ held, packet_eq⟩
      · exact ⟨twin.taken.length, by simp, acknowledges packet here opcode⟩
  · refine ⟨[], twin, rfl, after, acted, cursor, taken, ?_, offers, ?_, narrow,
      fun running => absurd running idle⟩
    · rw [counted, taken]
    · intro packet member opcode
      rcases List.mem_append.mp member with earlier | here
      · exact answered packet earlier opcode
      · exact absurd ⟨packet, here, opcode⟩ answers

/-- A step of the session is matched by moves of the protocol. -/
theorem session (same : link.Matches config twin)
    (sound : twin.Sound blocks) {input : Input} {machine : Machine}
    {effects : List Effect} (permitted : link.permits input = true)
    (stepped : link.machine.step input = some (machine, effects)) :
    ∃ more next, (protocol blocks).Run twin more next ∧
      UploadLink.Matches config
        { link with
          machine
          answers := link.answers ++
            (effects.filterMap Effect.packet).map Prod.fst
          written := link.written ++ effects.filterMap Effect.written }
        next := by
  have wellFormed := same.wellFormed
  rcases wellFormed.complete_or_fire stepped
      (State.ne_accepting_of_busy same.role.busy) with
    ⟨completion, rfl⟩ | ⟨row, environment, rfl⟩
  · exact ⟨[], twin, rfl, same.complete permitted stepped⟩
  · obtain ⟨event, exitEffects, cases⟩ := wellFormed.fireCases stepped
    have after := wellFormed.step stepped
    by_cases saved : row.action = .writeData
    · exact same.save sound cases after saved
    · have ongoing : row.action ≠ .reset := by
        simpa [permits] using permitted
      exact same.pass cases after ongoing saved

end UploadLink.Matches

end Matching

section Runs

variable {config : Config} {past : List Step} {accept : Step}
  {blocks : List Bytes} {history : List UploadStep} {link : UploadLink}

/-- An upload with its client is a run of the stop-and-wait protocol. -/
theorem Serving.refines_upload
    (serving : Serving config .initServeWriteRequest past accept []
      accept.after)
    (run : (upload blocks).Run (.accepted accept.after) history link) :
    ∃ trace twin, (protocol blocks).Run Link.started trace twin ∧
      link.Matches config twin := by
  refine run.simulated (fun _ => True) (fun _ _ => trivial)
    (fun _ link twin => link.Matches config twin) ?_ ?_
  · obtain ⟨environment, request, _, next_eq⟩ := serving.start (.inr rfl)
    have state : accept.after.state = .writeRequestReceived := by
      rw [next_eq]
      rfl
    have idle : accept.after.tasks = [] := by
      rw [next_eq]
      rfl
    refine ⟨serving.wellFormed_after, ?_, rfl, rfl,
      (serving.counters_start (.inr rfl)).2.1, ?_, ?_, Nat.zero_lt_succ _, ?_⟩
    · simp only [UploadLink.accepted, state, UploadRole]
    · intro packet member
      cases member
    · intro packet member
      cases member
    · intro running
      simp [UploadLink.accepted, idle] at running
  · rintro earlier ⟨before, move, effects, after⟩ trace twin reached same
      admitted _
    have sound := sound_of_run reached
    have admits : before.step blocks move = some (after, effects) := admitted
    cases uploadCases admits with
    | session permitted stepped => exact same.session sound permitted stepped
    | offer reached located => exact same.offer reached located
    | advance answered more narrow =>
        exact same.advance sound answered more narrow

/-- The blocks written are a beginning of the blocks of the client, at most one
behind it; none was skipped, and every block that was acknowledged was
written. -/
structure UploadLink.InStep (blocks : List Bytes) (link : UploadLink) :
    Prop where
  prefixed : link.written <+: blocks
  behind : link.written.length ≤ link.cursor
  ahead : link.cursor ≤ link.written.length + 1
  inOrder : ¬ link.machine.Skips
  acknowledged : ∀ number < 65536,
    Packet.ackPacket (UInt16.ofNat number) ∈ link.answers →
      number ≤ link.written.length
  whole : blocks.length < 65536 →
    Packet.ackPacket (UInt16.ofNat blocks.length) ∈ link.answers →
      link.written = blocks

theorem UploadLink.Matches.inStep {twin : Link Bytes}
    (same : link.Matches config twin) (sound : twin.Sound blocks) :
    link.InStep blocks := by
  have prefixed := sound.prefixed
  have behind := sound.behind
  have ahead := sound.ahead
  rw [same.taken] at prefixed behind ahead
  rw [same.cursor] at behind ahead
  have acknowledged : ∀ number < 65536,
      Packet.ackPacket (UInt16.ofNat number) ∈ link.answers →
        number ≤ link.written.length := by
    intro number small sent
    rw [← same.taken]
    exact sound.answered number (same.mem_answers sound small sent)
  refine ⟨prefixed, behind, ahead, ?_, acknowledged, ?_⟩
  · rintro ⟨waits, running, received, gap⟩
    have new : link.machine.data.isOldData = false := by
      simp only [SessionData.isOldData, decide_eq_false_iff_not]
      omega
    have follows := (same.follows sound running received new).1
    rw [same.taken, ← same.count] at follows
    omega
  · intro small sent
    exact prefixed.eq_of_length_le (acknowledged _ small sent)

/-- Whatever the network, strangers and the disk do, the session and its client
stay in step. -/
theorem upload_agrees (config : Config) (past : List Step) (accept : Step)
    (blocks : List Bytes) (history : List UploadStep) (link : UploadLink)
    (serving : Serving config .initServeWriteRequest past accept []
      accept.after)
    (run : (upload blocks).Run (.accepted accept.after) history link) :
    link.InStep blocks := by
  obtain ⟨trace, twin, reached, same⟩ := serving.refines_upload run
  exact same.inStep (sound_of_run reached)

end Runs

section Examples

/-- A handler of the session. -/
def UploadMove.completes (completion : Completion) :
    UploadMove × (UploadLink → Option UploadMove) :=
  (.session (.complete completion), fun link =>
    (link.machine.pending {}).map .session)

/-- A move that nothing follows at once. -/
def UploadMove.alone (move : UploadMove) :
    UploadMove × (UploadLink → Option UploadMove) :=
  (move, fun _ => none)

/-- A block of the client as a datagram. -/
def smallBlock (number : UInt16) (byte : UInt8) : Datagram where
  bytes := Packet.dataPacket number [byte]
  fits := Nat.le_of_ble_eq_true rfl

theorem exists_upload_of_execute
    (script : List (UploadMove × (UploadLink → Option UploadMove)))
    (check : List UploadStep → UploadLink → Bool)
    (checked : ((Machine.started .loopback).converse
        [(.accepted .client (requestOf .writeRequest), {})]).map
      (fun result => (List.range result.1.length).any fun index =>
        result.1[index]?.any fun step =>
          checkTransfer .initServeWriteRequest (fun accept rest _ =>
            rest.isEmpty && (upload [[7], [8]]).executesTo 6 script check
              (.accepted accept.after))
            (result.1.take index) step.before) = some true) :
    ∃ past accept history link,
      Serving .loopback .initServeWriteRequest past accept [] accept.after ∧
        (upload [[7], [8]]).Run (.accepted accept.after) history link ∧
          check history link = true := by
  obtain ⟨past, accept, serving, executed⟩ :=
    exists_accepted_of_converse .initServeWriteRequest _ _ checked
  obtain ⟨history, link, run, passes⟩ :=
    System.exists_run_of_executesTo executed
  exact ⟨past, accept, history, link, serving, run, passes⟩

/-- The session grants the request and waits for the first block. -/
def UploadMove.granting :
    List (UploadMove × (UploadLink → Option UploadMove)) :=
  [alone (.session (.fire ⟨.writeRequestReceived, none, .sendingAck,
      .formAckPacket, .not .hasError⟩ {})), completes (.sent false)]

open UploadMove in
/-- The first ACK of the first block is lost. -/
private def lossyUpload :
    List (UploadMove × (UploadLink → Option UploadMove)) :=
  granting ++
    [alone .advance, alone (.offer 1),
      completes (.received .client (smallBlock 1 7)),
      completes (.sent false), completes .receiveFailed,
      completes (.sent false), alone .advance, alone (.offer 1),
      alone (.offer 2), completes (.received .client (smallBlock 2 8)),
      alone (.offer 1)]

/-- Two blocks reach the file over a lossy network. -/
theorem two_blocks_agree :
    ∃ past accept history link,
      Serving .loopback .initServeWriteRequest past accept [] accept.after ∧
        (upload [[7], [8]]).Run (.accepted accept.after) history link ∧
          Packet.ackPacket 2 ∈ link.answers ∧ link.InStep [[7], [8]] := by
  obtain ⟨past, accept, history, link, serving, run, passes⟩ :=
    exists_upload_of_execute lossyUpload
      (fun _ link => decide (Packet.ackPacket 2 ∈ link.answers))
      (by decide +kernel)
  exact ⟨past, accept, history, link, serving, run,
    of_decide_eq_true passes, upload_agrees .loopback past accept
      [[7], [8]] history link serving run⟩

end Examples

end MsmTftp
