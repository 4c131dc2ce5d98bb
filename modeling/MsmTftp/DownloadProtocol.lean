import MsmTftp.SessionDownload
import MsmTftp.SessionSending
import MsmTftp.StopAndWait

/-!
# A download and its client

A session that serves a read request is put together with its client and the
network between them.  The client takes the block that follows those it holds
and acknowledges blocks that it holds, whenever and as often as it likes.  The
network keeps every packet and delivers any of them at any time, so packets
may be lost, repeated and reordered, and strangers send what they like.

Every run of this system is a run of the stop-and-wait protocol on the blocks
of the file, so the session and its client agree on the file.
-/

namespace MsmTftp

open TransitionSystem TransferBlocks StopAndWait

/-- A session, its client and the packets under way. -/
structure DownloadLink where
  machine : Machine
  /-- What the session has sent. -/
  sent : List Bytes
  /-- The blocks the client holds. -/
  taken : List Bytes
  /-- What the client has sent. -/
  answers : List Bytes

inductive DownloadMove
  /-- A step of the session. -/
  | session (input : Input)
  /-- The client takes a block from a packet that reached it. -/
  | take (packet : Bytes)
  /-- The client acknowledges a block. -/
  | acknowledge (number : Nat)

/-- The session input of a move. -/
def DownloadMove.input : DownloadMove → Option Input
  | session input => some input
  | _ => none

namespace DownloadLink

/-- The session has accepted the request of its client. -/
def accepted (machine : Machine) : DownloadLink where
  machine
  sent := []
  taken := []
  answers := []

/-- What may happen to the session until it resets: from its client it receives
what the client has sent. -/
def permits (link : DownloadLink) : Input → Bool
  | .complete (.received sender datagram) =>
      sender != link.machine.data.agreedRemoteEndpoint ||
        link.answers.contains datagram.bytes
  | .fire row _ => row.action != .reset
  | _ => true

/-- The client counts its blocks without wrapping around: it takes a packet
whose block number is the number of its next block. -/
def step (link : DownloadLink) :
    DownloadMove → Option (DownloadLink × List Effect)
  | .session input =>
      if link.permits input then
        (link.machine.step input).map fun next =>
          ({ link with
              machine := next.1
              sent := link.sent ++
                (next.2.filterMap Effect.packet).map Prod.fst }, next.2)
      else none
  | .take packet =>
      if packet ∈ link.sent ∧ Packet.opCode packet = .data ∧
          (Packet.word packet).toNat = link.taken.length + 1 then
        some ({ link with taken := link.taken ++ [Packet.payload packet] },
          [])
      else none
  | .acknowledge number =>
      if number ≤ link.taken.length then
        some ({ link with
          answers := link.answers ++
            [Packet.ackPacket (UInt16.ofNat number)] }, [])
      else none

end DownloadLink

/-- The transition system of a download with its client. -/
def download : System DownloadLink DownloadMove Effect where
  step := DownloadLink.step

abbrev DownloadStep := Transition DownloadLink DownloadMove Effect

/-- The steps of the session in a download. -/
def downloadSteps (history : List DownloadStep) : List Step :=
  history.filterMap
    (System.project DownloadLink.machine fun _ => DownloadMove.input)

section Cases

variable {link next : DownloadLink} {effects : List Effect}

/-- What a step of a download does. -/
inductive DownloadCases (link : DownloadLink) :
    DownloadMove → List Effect → DownloadLink → Prop
  | session {input : Input} {machine : Machine} {effects : List Effect}
      (permitted : link.permits input = true)
      (stepped : link.machine.step input = some (machine, effects)) :
      DownloadCases link (.session input) effects
        { link with
          machine
          sent := link.sent ++ (effects.filterMap Effect.packet).map Prod.fst }
  | take {packet : Bytes} (sent : packet ∈ link.sent)
      (opcode : Packet.opCode packet = .data)
      (follows : (Packet.word packet).toNat = link.taken.length + 1) :
      DownloadCases link (.take packet) []
        { link with taken := link.taken ++ [Packet.payload packet] }
  | acknowledge {number : Nat} (held : number ≤ link.taken.length) :
      DownloadCases link (.acknowledge number) []
        { link with
          answers := link.answers ++
            [Packet.ackPacket (UInt16.ofNat number)] }

theorem downloadCases {move : DownloadMove}
    (stepped : link.step move = some (next, effects)) :
    DownloadCases link move effects next := by
  cases move with
  | session input =>
      simp only [DownloadLink.step, Option.ite_none_right_eq_some,
        Option.map_eq_some_iff, Prod.mk.injEq] at stepped
      obtain ⟨permitted, ⟨machine, _⟩, stepped, rfl, rfl⟩ := stepped
      exact .session permitted stepped
  | take packet =>
      simp only [DownloadLink.step, Option.ite_none_right_eq_some,
        Option.some.injEq, Prod.mk.injEq] at stepped
      obtain ⟨⟨sent, opcode, follows⟩, rfl, rfl⟩ := stepped
      exact .take sent opcode follows
  | acknowledge number =>
      simp only [DownloadLink.step, Option.ite_none_right_eq_some,
        Option.some.injEq, Prod.mk.injEq] at stepped
      obtain ⟨held, rfl, rfl⟩ := stepped
      exact .acknowledge held

theorem DownloadLink.ongoing_of_permits {input : Input} {machine after : Machine}
    (permitted : link.permits input = true) :
    ¬ Step.Fires ⟨machine, input, effects, after⟩ .reset := by
  rintro ⟨row, environment, taken, resets⟩
  have taken : input = .fire row environment := taken
  subst taken
  simp [permits, resets] at permitted

end Cases

/-- How a download matches the stop-and-wait protocol: the cursor is the block
counter of the session. -/
structure DownloadLink.Matches (config : Config) (size : Nat)
    (content : Bytes) (history : List DownloadStep) (link : DownloadLink)
    (twin : Link Bytes) : Prop where
  downloading : Downloading config size content (downloadSteps history)
    link.machine
  cursor : twin.cursor = link.machine.data.lastSentBlock
  taken : twin.taken = link.taken
  offered : ∀ packet ∈ link.sent, Packet.opCode packet = .data →
    (Packet.word packet).toNat ≠ 0 →
      ((Packet.word packet).toNat, Packet.payload packet) ∈ twin.offers
  answered : ∀ bytes ∈ link.answers, ∃ number ∈ twin.answers,
    bytes = Packet.ackPacket (UInt16.ofNat number)
  narrow : link.taken.length < 65536
  heard : link.machine.tasks = [.process .packetReceived] →
    link.machine.data.fromAgreedEndpoint = true →
      link.machine.data.incoming ∈ link.answers

section Steps

variable {config : Config} {size : Nat} {content : Bytes}
  {history : List Step} {machine next : Machine} {input : Input}
  {effects : List Effect}

theorem Downloading.lastSentBlock_step {step : Step}
    (before : Downloading config size content history machine)
    (after : Downloading config size content (history ++ [step]) next) :
    next.data.lastSentBlock = machine.data.lastSentBlock +
      if step.fires .formDataPacket then 1 else 0 := by
  have lengths := congrArg List.length after.formed
  rw [formedPackets_concat, before.formed, List.length_append,
    dataPackets_length, dataPackets_length] at lengths
  rw [← lengths, Step.formedPacket]
  split <;> rfl

theorem Downloading.packet_eq
    (downloading : Downloading config size content history machine)
    {packet : Bytes} (last : (formedPackets history).getLast? = some packet) :
    ∃ index, machine.data.lastSentBlock = index + 1 ∧
      packet = Packet.dataPacket (UInt16.ofNat (index + 1))
        (block size content index) := by
  rw [downloading.formed] at last
  cases count : machine.data.lastSentBlock with
  | zero => simp [count, dataPackets] at last
  | succ index =>
      rw [count, dataPackets_succ, List.getLast?_append] at last
      simp only [List.getLast?_singleton, Option.some_or,
        Option.some.injEq] at last
      exact ⟨index, rfl, last.symm⟩

/-- A packet is only formed for an acknowledgment of the current block, or
before there is one. -/
theorem Downloading.acknowledged
    (downloading : Downloading config size content history machine)
    {row : Row} {environment : Environment} {event : Option Event}
    {exitEffects : List Effect}
    (cases : FireCases machine row environment event exitEffects effects
      next) (forms : row.action = .formDataPacket) :
    machine.data.hasMoreToSend = true ∧
      (machine.data.lastSentBlock = 0 ∨
        machine.tasks = [.process .packetReceived] ∧
          machine.data.fromAgreedEndpoint = true ∧
          machine.data.incoming.length = 4 ∧
          (Packet.word machine.data.incoming).toNat =
            machine.data.lastSentBlock) := by
  have role := downloading.role
  have firing := cases.firing
  rw [forms] at firing
  refine ⟨role.more firing, ?_⟩
  rcases firing.of_formDataPacket.1 with starts | waits
  · left
    rw [starts] at role
    exact role
  · right
    rw [waits] at firing
    obtain ⟨kind, agreed, received, current⟩ := firing.of_nextBlock
    have running := cases.running
    rw [Event.eq_packetReceived kind] at running
    simp only [SessionData.hasAckReceived, SessionData.isOldAck,
      Bool.and_eq_true, beq_iff_eq, decide_eq_true_eq,
      decide_eq_false_iff_not] at received current
    obtain ⟨⟨long, _⟩, bound⟩ := received
    have word : machine.data.receivedWord =
        Packet.word machine.data.incoming :=
      Packet.word_eq_word rfl (Nat.le_of_eq long.symm)
    rw [word] at bound current
    refine ⟨running, agreed, ?_, Nat.le_antisymm bound
      (Nat.not_lt.mp current)⟩
    rw [SessionData.incoming_length]
    exact long

theorem SessionData.Positioned.inside {data : SessionData}
    (positioned : data.Positioned size content) (positive : 0 < size)
    (more : data.hasMoreToSend = true) :
    data.lastSentBlock < (cut size content).length := by
  rw [cut, blocks_length, Nat.lt_succ_iff]
  cases count : data.lastSentBlock with
  | zero => exact Nat.zero_le _
  | succ index =>
      have length := positioned.last index count
      have full : data.lastBlockSize = size := by
        simpa [SessionData.hasMoreToSend, positioned.blockSize, count]
          using more
      rw [Nat.le_div_iff_mul_le positive, Nat.succ_mul]
      rw [full, block_length] at length
      omega

end Steps

section Projection

variable {history : List DownloadStep} {link next : DownloadLink}
  {effects : List Effect}

theorem downloadSteps_session {input : Input} :
    downloadSteps
        (history ++ [⟨link, .session input, effects, next⟩]) =
      downloadSteps history ++
        [⟨link.machine, input, effects, next.machine⟩] := by
  simp [downloadSteps, System.project, DownloadMove.input]

theorem downloadSteps_client {move : DownloadMove}
    (client : move.input = none) :
    downloadSteps (history ++ [⟨link, move, effects, next⟩]) =
      downloadSteps history := by
  simp [downloadSteps, System.project, client]

end Projection

section Matching

variable {config : Config} {size : Nat} {content : Bytes}
  {history : List DownloadStep} {link : DownloadLink} {twin : Link Bytes}

namespace DownloadLink.Matches

theorem mem_answers
    (same : link.Matches config size content history twin)
    (sound : twin.Sound (cut size content)) {bytes : Bytes}
    (sent : bytes ∈ link.answers) :
    (Packet.word bytes).toNat ∈ twin.answers := by
  obtain ⟨number, member, rfl⟩ := same.answered bytes sent
  have held := sound.answered number member
  rw [same.taken] at held
  have narrow : number < 65536 := Nat.lt_of_le_of_lt held same.narrow
  rw [Packet.word_ackPacket, UInt16.toNat_ofNat_of_lt' narrow]
  exact member

theorem take (same : link.Matches config size content history twin)
    {packet : Bytes} (sent : packet ∈ link.sent)
    (opcode : Packet.opCode packet = .data)
    (follows : (Packet.word packet).toNat = link.taken.length + 1) :
    ∃ more next, (protocol (cut size content)).Run twin more next ∧
      DownloadLink.Matches config size content
        (history ++ [⟨link, .take packet, [],
          { link with taken := link.taken ++ [Packet.payload packet] }⟩])
        { link with taken := link.taken ++ [Packet.payload packet] } next := by
  have offered := same.offered packet sent opcode (by omega)
  rw [follows, ← same.taken] at offered
  have narrow := (Packet.word packet).toNat_lt
  refine ⟨[⟨twin, .take (twin.taken.length + 1) (Packet.payload packet),
      [Packet.payload packet],
      { twin with taken := twin.taken ++ [Packet.payload packet] }⟩], _,
    ⟨rfl, if_pos ⟨offered, rfl⟩, rfl⟩, ?_⟩
  obtain ⟨downloading, cursor, taken, offers, answered, _, heard⟩ := same
  refine ⟨?_, cursor, ?_, offers, answered, ?_, heard⟩
  · rw [downloadSteps_client rfl]
    exact downloading
  · rw [taken]
  · rw [List.length_append, List.length_singleton, ← follows]
    exact narrow

theorem acknowledge (same : link.Matches config size content history twin)
    {number : Nat} (held : number ≤ link.taken.length) :
    ∃ more next, (protocol (cut size content)).Run twin more next ∧
      DownloadLink.Matches config size content
        (history ++ [⟨link, .acknowledge number, [],
          { link with
            answers := link.answers ++
              [Packet.ackPacket (UInt16.ofNat number)] }⟩])
        { link with
          answers := link.answers ++
            [Packet.ackPacket (UInt16.ofNat number)] } next := by
  rw [← same.taken] at held
  refine ⟨[⟨twin, .answer number, [],
      { twin with answers := twin.answers ++ [number] }⟩], _,
    ⟨rfl, if_pos held, rfl⟩, ?_⟩
  obtain ⟨downloading, cursor, taken, offers, answered, narrow, heard⟩ := same
  refine ⟨?_, cursor, taken, offers, ?_, narrow, ?_⟩
  · rw [downloadSteps_client rfl]
    exact downloading
  · intro bytes member
    rcases List.mem_append.mp member with earlier | here
    · obtain ⟨other, sent, rfl⟩ := answered bytes earlier
      exact ⟨other, List.mem_append_left _ sent, rfl⟩
    · exact ⟨number, by simp, List.mem_singleton.mp here⟩
  · intro running agreed
    exact List.mem_append_left _ (heard running agreed)

/-- What is being processed comes from the client or from a stranger. -/
theorem heard_of_step
    (same : link.Matches config size content history twin) {input : Input}
    {machine : Machine} {effects : List Effect}
    (permitted : link.permits input = true)
    (stepped : link.machine.step input = some (machine, effects))
    (running : machine.tasks = [.process .packetReceived])
    (agreed : machine.data.fromAgreedEndpoint = true) :
    machine.data.incoming ∈ link.answers := by
  have wellFormed := same.downloading.wellFormed
  rcases wellFormed.complete_or_fire stepped
      same.downloading.role.ne_accepting with
    ⟨completion, rfl⟩ | ⟨row, environment, rfl⟩
  · cases stepCases stepped with
    | complete settled idle started =>
        cases completion with
        | received sender datagram =>
            have known : sender =
                link.machine.data.agreedRemoteEndpoint :=
              beq_iff_eq.mp agreed
            simp only [permits, known, bne_self_eq_false, Bool.false_or,
              List.contains_iff_mem] at permitted
            have incoming : (link.machine.data.received sender
                datagram).incoming = datagram.bytes :=
              incoming_received sender datagram
            rw [SessionData.received] at incoming
            rw [incoming]
            exact permitted
        | accepted sender datagram =>
            simp only [Completion.start] at running
            split at running <;> simp at running
        | _ => simp [Completion.start] at running
  · obtain ⟨event, exitEffects, cases⟩ := wellFormed.fireCases stepped
    rw [cases.tasks_eq] at running
    cases running

theorem form (same : link.Matches config size content history twin)
    (sound : twin.Sound (cut size content)) (positive : 0 < size)
    {input : Input} {machine : Machine} {effects : List Effect}
    (stepped : link.machine.step input = some (machine, effects))
    (after : Downloading config size content
      (downloadSteps history ++ [⟨link.machine, input, effects, machine⟩])
        machine)
    (forms : Step.fires ⟨link.machine, input, effects, machine⟩
      .formDataPacket = true) :
    effects.filterMap Effect.packet = [] ∧
      ∃ more next, (protocol (cut size content)).Run twin more next ∧
        next = { twin with cursor := machine.data.lastSentBlock } := by
  obtain ⟨row, environment, taken, action⟩ := Step.fires_iff.mpr forms
  have taken : input = .fire row environment := taken
  subst taken
  obtain ⟨event, exitEffects, cases⟩ :=
    same.downloading.wellFormed.fireCases stepped
  obtain ⟨more, current⟩ := same.downloading.acknowledged cases action
  have inside := same.downloading.positioned.inside positive more
  have count := same.downloading.lastSentBlock_step after
  rw [forms, if_pos rfl] at count
  have firing := cases.firing
  rw [action] at firing
  constructor
  · rw [cases.packets, firing.of_formDataPacket.2,
      if_neg (by simp [State.operation])]
  · have answered : twin.cursor = 0 ∨ twin.cursor ∈ twin.answers := by
      rw [same.cursor]
      rcases current with start | ⟨running, agreed, _, number⟩
      · exact .inl start
      · have heard := same.heard running agreed
        rw [← number]
        exact .inr (same.mem_answers sound heard)
    rw [← same.cursor] at inside count
    exact ⟨[⟨twin, .advance, [], { twin with cursor := twin.cursor + 1 }⟩],
      _, ⟨rfl, if_pos ⟨answered, inside⟩, rfl⟩, by rw [count]⟩

theorem pass (same : link.Matches config size content history twin)
    (sound : twin.Sound (cut size content)) {effects : List Effect}
    (last : ∀ sent ∈ effects.filterMap Effect.packet,
      Packet.opCode sent.1 = .data →
        (formedPackets (downloadSteps history)).getLast? = some sent.1) :
    ∃ more next, (protocol (cut size content)).Run twin more next ∧
      next.cursor = twin.cursor ∧ next.taken = twin.taken ∧
        next.answers = twin.answers ∧
          ∀ packet ∈ link.sent ++
              (effects.filterMap Effect.packet).map Prod.fst,
            Packet.opCode packet = .data →
              (Packet.word packet).toNat ≠ 0 →
                ((Packet.word packet).toNat, Packet.payload packet) ∈
                  next.offers := by
  cases count : twin.cursor with
  | zero =>
      refine ⟨[], twin, rfl, count, rfl, rfl, ?_⟩
      intro packet member opcode number
      rcases List.mem_append.mp member with earlier | here
      · exact same.offered packet earlier opcode number
      · obtain ⟨sent, now, rfl⟩ := List.mem_map.mp here
        obtain ⟨index, reached, _⟩ :=
          same.downloading.packet_eq (last sent now opcode)
        rw [← same.cursor, count] at reached
        omega
  | succ index =>
      have inside := sound.inside
      rw [count, cut, blocks_length] at inside
      have located : blockAt (cut size content) (index + 1) =
          some (block size content index) :=
        getElem?_blocks inside
      refine ⟨[⟨twin, .offer (index + 1), [],
          { twin with
            offers := twin.offers ++
              [(index + 1, block size content index)] }⟩], _,
        ⟨rfl, ?_, rfl⟩, count, rfl, rfl, ?_⟩
      · simp only [System.Admits, protocol, Link.step, located,
          Option.map_some]
        exact if_pos (Nat.le_of_eq count.symm)
      · intro packet member opcode number
        rcases List.mem_append.mp member with earlier | here
        · exact List.mem_append_left _
            (same.offered packet earlier opcode number)
        · obtain ⟨sent, now, rfl⟩ := List.mem_map.mp here
          obtain ⟨other, reached, packet⟩ :=
            same.downloading.packet_eq (last sent now opcode)
          rw [← same.cursor, count] at reached
          obtain rfl : index = other := Nat.succ.inj reached
          -- The number of the packet is not zero, so it did not wrap around.
          have ahead := sound.ahead
          rw [same.taken, count] at ahead
          have narrow : index + 1 < 65536 := by
            have bound := same.narrow
            by_contra wide
            have wraps : index + 1 = 65536 := by omega
            rw [packet, Packet.word_dataPacket, wraps] at number
            exact number rfl
          apply List.mem_append_right
          rw [packet, Packet.word_dataPacket, Packet.payload_dataPacket,
            UInt16.toNat_ofNat_of_lt' narrow]
          exact List.mem_singleton_self _

/-- A step of the session is matched by moves of the protocol. -/
theorem session (same : link.Matches config size content history twin)
    (sound : twin.Sound (cut size content)) (positive : 0 < size)
    {input : Input} {machine : Machine} {effects : List Effect}
    (permitted : link.permits input = true)
    (stepped : link.machine.step input = some (machine, effects))
    (reads : Step.readsFrom content
      ⟨link.machine, input, effects, machine⟩ = true)
    {after : DownloadLink}
    (after_eq : after = { link with
      machine
      sent := link.sent ++ (effects.filterMap Effect.packet).map Prod.fst }) :
    ∃ more next, (protocol (cut size content)).Run twin more next ∧
      DownloadLink.Matches config size content
        (history ++ [⟨link, .session input, effects, after⟩]) after next := by
  have ongoing : ¬ Step.Fires ⟨link.machine, input, effects, machine⟩
      .reset := link.ongoing_of_permits permitted
  obtain ⟨downloading, last⟩ := same.downloading.step stepped ongoing reads
  have count := same.downloading.lastSentBlock_step downloading
  have heard := same.heard_of_step permitted stepped
  subst after_eq
  by_cases forms : Step.fires ⟨link.machine, input, effects, machine⟩
      .formDataPacket = true
  · obtain ⟨silent, more, next, run, rfl⟩ :=
      same.form sound positive stepped downloading forms
    refine ⟨more, _, run, ?_, rfl, same.taken, ?_, same.answered,
      same.narrow, heard⟩
    · rw [downloadSteps_session]
      exact downloading
    · rw [silent, List.map_nil, List.append_nil]
      exact same.offered
  · obtain ⟨more, next, run, cursor, taken, answers, offered⟩ :=
      same.pass sound last
    rw [if_neg forms, Nat.add_zero] at count
    refine ⟨more, next, run, ?_, ?_, taken.trans same.taken, offered, ?_,
      same.narrow, heard⟩
    · rw [downloadSteps_session]
      exact downloading
    · rw [cursor, same.cursor, count]
    · rw [answers]
      exact same.answered

end DownloadLink.Matches

end Matching

section Runs

variable {config : Config} {past : List Step} {accept : Step}
  {content : Bytes} {history : List DownloadStep} {link : DownloadLink}

/-- The step of a session reads from the content. -/
def DownloadMove.readsFrom (content : Bytes) : DownloadMove → Bool
  | session (.fire row environment) =>
      row.action != .formDataPacket ||
        (environment.content == content && environment.readError.isNone)
  | _ => true

theorem Serving.agreedBlockSize_pos
    (serving : Serving config .initServeReadRequest past accept []
      accept.after) : 0 < accept.after.data.agreedBlockSize := by
  obtain ⟨environment, request, pristine, next_eq⟩ := serving.start (.inl rfl)
  have inRange : (initServeReadRequest environment request
      accept.before.data).1.InRange :=
    pristine.inRange.initServeReadRequest
  rw [next_eq]
  exact Nat.lt_of_lt_of_le (by decide) inRange.blockSize.1

/-- A download with its client is a run of the stop-and-wait protocol. -/
theorem Serving.refines
    (serving : Serving config .initServeReadRequest past accept []
      accept.after)
    (opened : accept.after.data.fileStream.isOpen = true)
    (run : download.Run (.accepted accept.after) history link)
    (reads : ∀ step ∈ history,
      DownloadMove.readsFrom content (Transition.input step) = true) :
    ∃ trace twin,
      (protocol (cut accept.after.data.agreedBlockSize content)).Run
          Link.started trace twin ∧
        link.Matches config accept.after.data.agreedBlockSize content history
          twin := by
  have positive := serving.agreedBlockSize_pos
  have start := serving.downloading_start opened content
  have unsent := (serving.counters_start (.inl rfl)).1
  refine run.simulated
    (fun step => step.input.readsFrom content = true) reads
    (fun history link twin => link.Matches config
      accept.after.data.agreedBlockSize content history twin) ?_ ?_
  · refine ⟨start, unsent.symm, rfl, ?_, ?_, Nat.zero_lt_succ _, ?_⟩
    · intro packet member
      cases member
    · intro bytes member
      cases member
    · intro running
      obtain ⟨_, _, _, next_eq⟩ := serving.start (.inl rfl)
      have idle : accept.after.tasks = [] := by rw [next_eq]; rfl
      simp [DownloadLink.accepted, idle] at running
  · rintro earlier ⟨before, move, effects, after⟩ trace twin reached same
      admitted reads
    have sound := sound_of_run reached
    have admits : before.step move = some (after, effects) := admitted
    cases downloadCases admits with
    | @session input machine effects permitted stepped =>
        apply same.session sound positive permitted stepped _ rfl
        cases input with
        | fire row environment => exact reads
        | _ => rfl
    | take sent opcode follows => exact same.take sent opcode follows
    | acknowledge held => exact same.acknowledge held

/-- The client holds a beginning of the file, at most one block behind the
session, and the whole file once it holds a short block or its final
acknowledgment is processed. -/
structure DownloadLink.InStep (size : Nat) (content : Bytes)
    (link : DownloadLink) : Prop where
  prefixed : link.taken <+: cut size content
  behind : link.taken.length ≤ link.machine.data.lastSentBlock
  ahead : link.machine.data.lastSentBlock ≤ link.taken.length + 1
  short : ∀ final ∈ link.taken, final.length < size →
    link.taken.flatten = content
  final : link.machine.FinalAck → link.taken.flatten = content

/-- The final acknowledgment covers all blocks. -/
theorem DownloadLink.Matches.taken_of_final {size : Nat} {twin : Link Bytes}
    (same : link.Matches config size content history twin)
    (sound : twin.Sound (cut size content)) (positive : 0 < size)
    (final : link.machine.FinalAck) : link.taken = cut size content := by
  obtain ⟨waits, running, agreed, acknowledged⟩ := final
  simp only [Guard.hasFinalAckReceived, Guard.and, Guard.eval,
    Bool.and_true, Bool.and_eq_true, Bool.not_eq_true'] at acknowledged
  obtain ⟨received, current, done⟩ := acknowledged
  have positioned := same.downloading.positioned
  simp only [SessionData.hasMoreToSend, positioned.blockSize,
    Bool.or_eq_false_iff, beq_eq_false_iff_ne] at done
  obtain ⟨index, count⟩ := Nat.exists_eq_succ_of_ne_zero done.2
  have length := positioned.last index count
  rw [block_length] at length
  simp only [SessionData.hasAckReceived, SessionData.isOldAck,
    Bool.and_eq_true, beq_iff_eq, decide_eq_true_eq,
    decide_eq_false_iff_not] at received current
  obtain ⟨⟨long, _⟩, bound⟩ := received
  have word : link.machine.data.receivedWord =
      Packet.word link.machine.data.incoming :=
    Packet.word_eq_word rfl (Nat.le_of_eq long.symm)
  have answered := same.mem_answers sound (same.heard running agreed)
  rw [← word, Nat.le_antisymm bound (Nat.not_lt.mp current),
    ← same.cursor] at answered
  rw [← same.taken]
  apply sound.taken_eq answered
  -- The block was short, so no other follows it.
  rw [cut, blocks_length, same.cursor, count]
  apply Nat.succ_le_succ
  apply Nat.le_of_lt_succ
  rw [Nat.div_lt_iff_lt_mul positive, Nat.succ_mul]
  have other := done.1
  omega

theorem DownloadLink.Matches.inStep {size : Nat} {twin : Link Bytes}
    (same : link.Matches config size content history twin)
    (sound : twin.Sound (cut size content)) (positive : 0 < size) :
    link.InStep size content := by
  have prefixed := sound.prefixed
  have behind := sound.behind
  have ahead := sound.ahead
  rw [same.taken] at prefixed behind ahead
  rw [same.cursor] at behind ahead
  refine ⟨prefixed, behind, ahead, ?_, ?_⟩
  · intro final member short
    rw [eq_cut_of_short positive prefixed member short, cut_flatten positive]
  · intro final
    rw [same.taken_of_final sound positive final, cut_flatten positive]

/-- Whatever the network and strangers do, the session and its client stay in
step. -/
theorem download_agrees (config : Config) (past : List Step) (accept : Step)
    (content : Bytes) (history : List DownloadStep) (link : DownloadLink)
    (serving : Serving config .initServeReadRequest past accept []
      accept.after)
    (opened : accept.after.data.fileStream.isOpen = true)
    (run : download.Run (.accepted accept.after) history link)
    (reads : ∀ step ∈ history,
      DownloadMove.readsFrom content (Transition.input step) = true) :
    link.InStep accept.after.data.agreedBlockSize content := by
  obtain ⟨trace, twin, reached, same⟩ := serving.refines opened run reads
  exact same.inStep (sound_of_run reached) serving.agreedBlockSize_pos

end Runs

section Examples

/-- A read request for blocks of eight bytes. -/
def octets : Datagram where
  bytes := (requestOf .readRequest).bytes ++
    (BlockSizeDecoder.kBlockSizeOption ++ [0] ++ asciiBytes ['8', '\x00'])
  fits := by decide

/-- The content of a small file. -/
def elevenBytes : Bytes :=
  [0, 1, 2, 3, 4, 5, 6, 7, 8, 9, 10]

/-- The session goes on until its handler returns. -/
def untilReturned (link : DownloadLink) : Option DownloadMove :=
  (link.machine.pending { content := elevenBytes }).map .session

/-- A handler of the session. -/
def DownloadMove.completes (completion : Completion) :
    DownloadMove × (DownloadLink → Option DownloadMove) :=
  (.session (.complete completion), untilReturned)

/-- A move that nothing follows at once. -/
def DownloadMove.alone (move : DownloadMove) :
    DownloadMove × (DownloadLink → Option DownloadMove) :=
  (move, fun _ => none)

open DownloadMove in
/-- A repeated acknowledgment, a time-out and two copies of the first
block. -/
private def lossyScript :
    List (DownloadMove × (DownloadLink → Option DownloadMove)) :=
  [(.acknowledge 0, untilReturned), completes (.sent false),
    completes (.received .client (ackOf 0)), completes (.sent false),
    completes (.received .client (ackOf 0)), completes .receiveFailed,
    completes (.sent false),
    alone (.take (Packet.dataPacket 1 [0, 1, 2, 3, 4, 5, 6, 7])),
    alone (.acknowledge 1), completes (.received .client (ackOf 1)),
    completes (.sent false), alone (.take (Packet.dataPacket 2 [8, 9, 10])),
    alone (.acknowledge 2),
    alone (.session (.complete (.received .client (ackOf 2)))),
    alone (.acknowledge 2)]

theorem exists_download_of_execute
    (script : List (DownloadMove × (DownloadLink → Option DownloadMove)))
    (check : List DownloadStep → DownloadLink → Bool)
    (checked : ((Machine.started .loopback).converse
        [(.accepted .client octets, { content := elevenBytes })]).map
      (fun result => (List.range result.1.length).any fun index =>
        result.1[index]?.any fun step =>
          checkTransfer .initServeReadRequest (fun accept rest _ =>
            rest.isEmpty && (accept.after.data.fileStream.isOpen &&
              decide (accept.after.data.agreedBlockSize = 8) &&
                download.executesTo 6 script check (.accepted accept.after)))
            (result.1.take index) step.before) = some true) :
    ∃ past accept history link,
      Serving .loopback .initServeReadRequest past accept [] accept.after ∧
        accept.after.data.fileStream.isOpen = true ∧
          accept.after.data.agreedBlockSize = 8 ∧
            download.Run (.accepted accept.after) history link ∧
              check history link = true := by
  obtain ⟨past, accept, serving, passes⟩ :=
    exists_accepted_of_converse .initServeReadRequest _ _ checked
  simp only [Bool.and_eq_true, decide_eq_true_eq] at passes
  obtain ⟨⟨opened, size⟩, executed⟩ := passes
  obtain ⟨history, link, run, passes⟩ :=
    System.exists_run_of_executesTo executed
  exact ⟨past, accept, history, link, serving, opened, size, run, passes⟩

/-- A file of two blocks reaches its client over a lossy network. -/
theorem eleven_bytes_agree :
    ∃ past accept history link,
      Serving .loopback .initServeReadRequest past accept [] accept.after ∧
        download.Run (.accepted accept.after) history link ∧
          link.machine.FinalAck ∧ link.InStep 8 elevenBytes := by
  obtain ⟨past, accept, history, link, serving, opened, size, run, passes⟩ :=
    exists_download_of_execute lossyScript
      (fun history link => decide link.machine.FinalAck &&
        history.all fun step => step.input.readsFrom elevenBytes)
      (by decide +kernel)
  simp only [Bool.and_eq_true, decide_eq_true_eq, List.all_eq_true] at passes
  have agrees := download_agrees .loopback past accept elevenBytes history
    link serving opened run passes.2
  rw [size] at agrees
  exact ⟨past, accept, history, link, serving, run, passes.1, agrees⟩

end Examples

end MsmTftp
