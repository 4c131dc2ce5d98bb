import MsmTftp.SessionRole
import MsmTftp.TransferBlocks

/-!
# Downloads

A session that serves a read request forms one DATA packet for every block of
the file.  It forms the next packet when the current one was acknowledged, and
sends the current packet again after a time-out.  While the content of the
file does not change, the packets formed are the blocks of the content, and a
download ends by its final ACK only when they make up the whole content.
-/

namespace MsmTftp

open CellBuffer TransitionSystem TransferBlocks

/-- The DATA packet that the step forms. -/
def Step.formedPacket (step : Step) : Option Bytes :=
  if step.fires .formDataPacket then some step.after.data.outgoing else none

/-- The DATA packets formed, each once. -/
def formedPackets (history : List Step) : List Bytes :=
  history.filterMap Step.formedPacket

/-- The DATA packets of the first `count` blocks of a content. -/
def dataPackets (size : Nat) (content : Bytes) (count : Nat) : List Bytes :=
  (List.range count).map fun index =>
    Packet.dataPacket (UInt16.ofNat (index + 1)) (block size content index)

/-- When the step reads a block, the file has this content and the read stops
at its end only. -/
def Step.readsFrom (content : Bytes) (step : Step) : Bool :=
  match step.input with
  | .fire row environment =>
      row.action != .formDataPacket ||
        (environment.content == content && environment.readError.isNone)
  | _ => true

/-- In `WaitingForAck` the step receives, from the agreed endpoint, an ACK of
four bytes with this block number. -/
structure Step.Acknowledges (step : Step) (number : Nat) : Prop where
  waits : step.before.state = .waitingForAck
  received : ∃ datagram, step.input =
      .complete (.received step.before.data.agreedRemoteEndpoint datagram) ∧
    datagram.bytes.length = 4 ∧
      Packet.opCode datagram.bytes = .acknowledgment ∧
        (Packet.word datagram.bytes).toNat = number

/-- The packet that is sent until the next one is formed: the last DATA packet
formed, or an OACK before the first one. -/
def Outgoing (formed : List Bytes) (packet : Bytes) : Prop :=
  formed.getLast? = some packet ∨
    formed = [] ∧ Packet.opCode packet = .optionAcknowledgment

/-- The packets formed are the blocks of the content, each is formed when the
one before it was acknowledged, and no other DATA packets are sent. -/
structure Faithful (size : Nat) (content : Bytes) (history : List Step) :
    Prop where
  formed : formedPackets history =
    dataPackets size content (formedPackets history).length
  acknowledged : ∀ before (step : Step) after,
    history = before ++ step :: after → step.Fires .formDataPacket →
      before = [] ∨ ∃ earlier ack, before = earlier ++ [ack] ∧
        Step.Acknowledges ack (formedPackets before).length ∧
          Outgoing (formedPackets before) ack.before.data.outgoing
  sent : ∀ before (step : Step) after, history = before ++ step :: after →
    ∀ sent ∈ step.outputs.filterMap Effect.packet,
      Packet.opCode sent.1 = .data →
        (formedPackets before).getLast? = some sent.1

/-- The final ACK is about to be processed. -/
def Machine.FinalAck (machine : Machine) : Prop :=
  machine.state = .waitingForAck ∧
    machine.tasks = [.process .packetReceived] ∧
      machine.data.fromAgreedEndpoint = true ∧
        Guard.hasFinalAckReceived.eval machine.data = true

instance (machine : Machine) : Decidable machine.FinalAck :=
  inferInstanceAs (Decidable (_ ∧ _))

/-- The payloads of the packets formed make up the content, all of them were
sent, and the last one is shorter than a block. -/
structure Delivered (size : Nat) (content : Bytes) (history : List Step) :
    Prop where
  whole : ((formedPackets history).map Packet.payload).flatten = content
  sent : ∀ packet ∈ formedPackets history,
    packet ∈ (sentPackets history).map Prod.fst
  last : ∃ packet, (formedPackets history).getLast? = some packet ∧
    (Packet.payload packet).length < size ∧
      (size ∣ content.length → Packet.payload packet = [])

section Reading

variable {size : Nat} {content : Bytes} {data : SessionData}
  {environment : Environment}

theorem dataPackets_succ (size : Nat) (content : Bytes) (count : Nat) :
    dataPackets size content (count + 1) =
      dataPackets size content count ++
        [Packet.dataPacket (UInt16.ofNat (count + 1))
          (block size content count)] := by
  simp [dataPackets, List.range_succ]

@[simp]
theorem dataPackets_length (size : Nat) (content : Bytes) (count : Nat) :
    (dataPackets size content count).length = count := by
  simp [dataPackets]

theorem dataPackets_payload (size : Nat) (content : Bytes) (count : Nat) :
    (dataPackets size content count).map Packet.payload =
      blocks size content count := by
  simp [dataPackets, blocks]

/-- The counters and the stream after some blocks were sent. -/
structure SessionData.Positioned (size : Nat) (content : Bytes)
    (data : SessionData) : Prop where
  blockSize : data.agreedBlockSize = size
  readable : data.fileStream.readable = true
  sound : data.fileStream.badbit = false
  last : ∀ index, data.lastSentBlock = index + 1 →
    data.lastBlockSize = (block size content index).length
  ready : data.hasMoreToSend = true → data.fileStream.good = true ∧
    data.fileStream.position = data.lastSentBlock * size

/-- The stream after the next block was read. -/
def FileStream.after (size : Nat) (content : Bytes) (index : Nat)
    (stream : FileStream) : FileStream :=
  { stream with
    eofbit := decide ((block size content index).length < size)
    failbit := decide ((block size content index).length < size)
    position := index * size + (block size content index).length }

theorem SessionData.Positioned.read
    (positioned : data.Positioned size content)
    (more : data.hasMoreToSend = true)
    (same : environment.content = content)
    (noError : environment.readError = none) :
    data.streamAfterRead environment =
        data.fileStream.after size content data.lastSentBlock ∧
      data.nextBlock environment =
        block size content data.lastSentBlock := by
  obtain ⟨good, position⟩ := positioned.ready more
  simp only [SessionData.streamAfterRead, SessionData.nextBlock, same,
    noError, positioned.blockSize, FileStream.read, good, if_true,
    positioned.readable, position, FileStream.after]
  exact ⟨rfl, rfl⟩

/-- The next packet is formed from the next block. -/
theorem SessionData.Positioned.formDataPacket
    (positioned : data.Positioned size content)
    (more : data.hasMoreToSend = true)
    (same : environment.content = content)
    (noError : environment.readError = none) :
    (MsmTftp.formDataPacket environment data).lastSentBlock =
        data.lastSentBlock + 1 ∧
      (MsmTftp.formDataPacket environment data).outgoing =
        Packet.dataPacket (UInt16.ofNat (data.lastSentBlock + 1))
          (block size content data.lastSentBlock) ∧
      (MsmTftp.formDataPacket environment data).Positioned size content := by
  obtain ⟨stream, bytes⟩ := positioned.read more same noError
  have delivered : (data.streamAfterRead environment).bad = false := by
    rw [stream]
    exact positioned.sound
  have outgoing := outgoing_formDataPacket delivered
  rw [bytes] at outgoing
  refine ⟨?_, outgoing, ?_⟩
  · rw [formDataPacket_of_not_bad delivered]
  · rw [formDataPacket_of_not_bad delivered, stream, bytes]
    refine ⟨positioned.blockSize, positioned.readable, positioned.sound, ?_,
      ?_⟩
    · intro index counts
      have same : data.lastSentBlock = index := Nat.succ.inj counts
      rw [← same]
    · intro full
      have full : (block size content data.lastSentBlock).length = size := by
        simpa [SessionData.hasMoreToSend, positioned.blockSize] using full
      constructor
      · simp [FileStream.good, FileStream.after, full, positioned.sound]
      · simp only [FileStream.after, full]
        exact (Nat.succ_mul _ _).symm

end Reading

/-- The packet that is sent in a download. -/
def SessionData.Current (size : Nat) (content : Bytes)
    (data : SessionData) : Prop :=
  data.lastSentBlock = 0 ∧
      Packet.opCode data.outgoing = .optionAcknowledgment ∨
    ∃ index, data.lastSentBlock = index + 1 ∧
      data.outgoing = Packet.dataPacket (UInt16.ofNat (index + 1))
        (block size content index)

/-- What holds while a download is served. -/
def DownloadRole (size : Nat) (content : Bytes) (data : SessionData) :
    State → Prop
  | .readRequestReceived => data.lastSentBlock = 0
  | .dataRead | .sendingData | .waitingForAck => data.Current size content
  | .sendingError => Packet.opCode data.outgoing = .error
  | _ => False

section Roles

variable {size : Nat} {content : Bytes} {data : SessionData}
  {source target state : State} {event : Option EventKind} {action : Action}

theorem DownloadRole.ne_accepting (role : DownloadRole size content data state) :
    state ≠ .accepting := by
  rintro rfl
  exact role.elim

theorem DownloadRole.start (completion : Completion) :
    DownloadRole size content (completion.start data).1 state ↔
      DownloadRole size content data state := by
  cases completion <;> exact Iff.rfl

theorem SessionData.Positioned.start (completion : Completion)
    (positioned : data.Positioned size content) :
    (completion.start data).1.Positioned size content := by
  obtain ⟨blockSize, readable, sound, last, ready⟩ := positioned
  cases completion <;> exact ⟨blockSize, readable, sound, last, ready⟩

theorem Firing.of_formDataPacket
    (firing : Firing data source event .formDataPacket target) :
    (source = .readRequestReceived ∨ source = .waitingForAck) ∧
      target = .dataRead := by
  cases firing <;> simp

/-- In `WaitingForAck` a DATA packet is formed for a current ACK. -/
theorem Firing.of_nextBlock
    (firing : Firing data .waitingForAck event .formDataPacket target) :
    event = some .packetReceived ∧ data.fromAgreedEndpoint = true ∧
      data.hasAckReceived = true ∧ data.isOldAck = false := by
  cases firing with
  | nextBlock agreed received current more =>
      exact ⟨rfl, agreed, received, current⟩

theorem Firing.of_dataRead (firing : Firing data .dataRead event action target) :
    action = .resetTimeOut ∧ target = .sendingData ∨
      target = .sendingError := by
  cases firing <;> simp

theorem DownloadRole.more (role : DownloadRole size content data source)
    (firing : Firing data source event .formDataPacket target) :
    data.hasMoreToSend = true := by
  cases firing with
  | firstBlock noError plain =>
      have unsent : data.lastSentBlock = 0 := role
      simp [SessionData.hasMoreToSend, unsent]
  | nextBlock agreed received current more => exact more

/-- What a firing other than `Reset` does to a download. -/
structure Advance (size : Nat) (content : Bytes) (data acted : SessionData)
    (action : Action) (target : State) : Prop where
  role : DownloadRole size content acted target
  positioned : acted.Positioned size content
  count : acted.lastSentBlock =
    if action = .formDataPacket then data.lastSentBlock + 1
    else data.lastSentBlock

theorem DownloadRole.fire (role : DownloadRole size content data source)
    (environment : Environment) (happens : Option Event)
    (positioned : data.Positioned size content)
    (firing : Firing data source event action target)
    (ongoing : action ≠ .reset)
    (reads : action = .formDataPacket →
      environment.content = content ∧ environment.readError = none) :
    Advance size content data (action.run environment happens data).1 action
      target := by
  by_cases forms : action = .formDataPacket
  · subst forms
    have more := role.more firing
    obtain ⟨_, rfl⟩ := firing.of_formDataPacket
    obtain ⟨same, noError⟩ := reads rfl
    obtain ⟨count, outgoing, after⟩ :=
      positioned.formDataPacket more same noError
    exact ⟨.inr ⟨data.lastSentBlock, count, outgoing⟩, after, count⟩
  · obtain ⟨blockSize, readable, sound, last, ready⟩ := positioned
    cases firing with
    | firstBlock noError plain => exact absurd rfl forms
    | nextBlock agreed received current more => exact absurd rfl forms
    | announceOptions options =>
        have unsent : data.lastSentBlock = 0 := role
        refine ⟨.inl ⟨rfl, opCode_formOackPacket⟩,
          ⟨blockSize, readable, sound, by simp [Action.run, formOackPacket],
            fun _ => ?_⟩, unsent.symm⟩
        have start := ready (by simp [SessionData.hasMoreToSend, unsent])
        rw [unsent] at start
        exact start
    | refuseRead error =>
        exact ⟨opCode_formErrorPacketWith _,
          ⟨blockSize, readable, sound, last, ready⟩, rfl⟩
    | blockRead noError =>
        exact ⟨role, ⟨blockSize, readable, sound, last, ready⟩, rfl⟩
    | readFailed error =>
        exact ⟨opCode_formErrorPacketWith _,
          ⟨blockSize, readable, sound, last, ready⟩, rfl⟩
    | dataSent =>
        exact ⟨role, ⟨blockSize, readable, sound, last, ready⟩, rfl⟩
    | resendData retry =>
        exact ⟨role, ⟨blockSize, readable, sound, last, ready⟩, rfl⟩
    | notAck agreed other =>
        exact ⟨opCode_formErrorPacketWith _,
          ⟨blockSize, readable, sound, last, ready⟩, rfl⟩
    | oldAck ignored =>
        exact ⟨role, ⟨blockSize, readable, sound, last, ready⟩, rfl⟩
    | finish final => exact absurd rfl ongoing
    | giveUpRead exhausted => exact absurd rfl ongoing
    | errorSent => exact absurd rfl ongoing
    | _ => exact role.elim

theorem DownloadRole.last (role : DownloadRole size content data state)
    (sends : state.operation = some .send)
    (opcode : Packet.opCode data.outgoing = .data) :
    (dataPackets size content data.lastSentBlock).getLast? =
      some data.outgoing := by
  cases state with
  | sendingData =>
      rcases role with ⟨_, oack⟩ | ⟨index, count, outgoing⟩
      · simp [oack, OpCode.data, OpCode.optionAcknowledgment] at opcode
      · rw [count, dataPackets_succ, outgoing]
        simp
  | sendingError =>
      have error : Packet.opCode data.outgoing = .error := role
      simp [error, OpCode.data, OpCode.error] at opcode
  | sendingAck => exact role.elim
  | _ => simp [State.operation] at sends

/-- The packet of a download is the last one formed, or an OACK. -/
theorem SessionData.Current.outgoing (current : data.Current size content) :
    Outgoing (dataPackets size content data.lastSentBlock) data.outgoing := by
  rcases current with ⟨unsent, oack⟩ | ⟨index, count, outgoing⟩
  · exact .inr ⟨by rw [unsent]; rfl, oack⟩
  · left
    rw [count, dataPackets_succ, outgoing]
    simp

end Roles

/-- The invariant of a download. -/
structure Downloading (config : Config) (size : Nat) (content : Bytes)
    (history : List Step) (machine : Machine) : Prop where
  wellFormed : machine.WellFormed config
  role : DownloadRole size content machine.data machine.state
  positioned : machine.data.Positioned size content
  formed : formedPackets history =
    dataPackets size content machine.data.lastSentBlock
  sent : machine.state ≠ .sendingError →
    ∀ packet ∈ formedPackets history,
      packet ∈ (sentPackets history).map Prod.fst ∨
        machine.state = .dataRead ∧ packet = machine.data.outgoing
  first : machine.state = .readRequestReceived → history = []

section Steps

variable {config : Config} {size : Nat} {content : Bytes}
  {history : List Step} {machine next : Machine} {effects : List Effect}

theorem formedPackets_concat (history : List Step) (step : Step) :
    formedPackets (history ++ [step]) =
      formedPackets history ++ step.formedPacket.toList := by
  cases formed : step.formedPacket <;> simp [formedPackets, formed]

theorem Downloading.complete
    (downloading : Downloading config size content history machine)
    {completion : Completion}
    (stepped : machine.step (.complete completion) = some (next, effects)) :
    Downloading config size content
      (history ++ [⟨machine, .complete completion, effects, next⟩]) next := by
  obtain ⟨wellFormed, role, positioned, formed, sent, first⟩ := downloading
  have after := wellFormed.step stepped
  obtain ⟨_, packets, _⟩ := silent_of_not_fire stepped (by simp)
  cases stepCases stepped with
  | complete settled idle started =>
      refine ⟨after, (DownloadRole.start completion).mpr role,
        positioned.start completion, ?_, ?_, ?_⟩
      · rw [formedPackets_concat, formed]
        have counts : (completion.start machine.data).1.lastSentBlock =
            machine.data.lastSentBlock := by
          cases completion <;> rfl
        simp [Step.formedPacket, Step.fires, counts]
      · intro other packet member
        rw [formedPackets_concat] at member
        rw [sentPackets_concat, packets, List.append_nil,
          start_outgoing]
        exact sent other packet
          (by simpa [Step.formedPacket, Step.fires] using member)
      · intro starts
        have starts : machine.state = .readRequestReceived := starts
        have waits := settled_iff.mp settled
        simp [starts, State.operation] at waits

theorem Downloading.form
    (downloading : Downloading config size content history machine)
    {row : Row} {environment : Environment} {event : Option Event}
    {exitEffects : List Effect}
    (cases : FireCases machine row environment event exitEffects effects
      next)
    (after : next.WellFormed config)
    (forms : row.action = .formDataPacket)
    (same : environment.content = content)
    (noError : environment.readError = none) :
    Downloading config size content
      (history ++ [⟨machine, .fire row environment, effects, next⟩]) next := by
  obtain ⟨_, role, positioned, formed, sent, _⟩ := downloading
  have firing := cases.firing
  rw [forms] at firing
  have more := role.more firing
  obtain ⟨source, target⟩ := firing.of_formDataPacket
  have advance := role.fire environment event positioned firing (by simp)
    fun _ => ⟨same, noError⟩
  have entered : next.data =
      (Action.run environment event machine.data .formDataPacket).1 := by
    rw [cases.data_eq (by simp [target]), forms]
  have reads : next.state = .dataRead := cases.state_eq.trans target
  obtain ⟨count, outgoing, _⟩ :=
    positioned.formDataPacket more same noError
  have packet : Step.formedPacket
      ⟨machine, .fire row environment, effects, next⟩ =
        some next.data.outgoing := by
    simp [Step.formedPacket, Step.fires, forms]
  have silent : effects.filterMap Effect.packet = [] := by
    rw [cases.packets, target, if_neg (by simp [State.operation])]
  refine ⟨after, ?_, ?_, ?_, ?_, ?_⟩
  · rw [entered, reads, ← target]
    exact advance.role
  · rw [entered]
    exact advance.positioned
  · rw [formedPackets_concat, packet, formed, entered, Action.run, count,
      outgoing, dataPackets_succ]
    rfl
  · intro _ earlierPacket member
    rw [formedPackets_concat, packet, Option.toList_some, List.mem_append,
      List.mem_singleton] at member
    rcases member with earlier | rfl
    · have calm : machine.state ≠ .sendingError := by
        rcases source with source | source <;> simp [source]
      rcases sent calm earlierPacket earlier with was | ⟨reading, _⟩
      · rw [sentPackets_concat, silent, List.append_nil]
        exact .inl was
      · rcases source with source | source <;> simp [reading] at source
    · exact .inr ⟨reads, rfl⟩
  · simp [reads]

/-- Any other row but `Reset` sends the packet that is still unsent, unless
the session goes over to sending an error. -/
theorem Downloading.sent_of_pass
    (downloading : Downloading config size content history machine)
    {row : Row} {environment : Environment} {event : Option Event}
    {exitEffects : List Effect}
    (cases : FireCases machine row environment event exitEffects effects
      next)
    (ongoing : row.action ≠ .reset) (other : row.target ≠ .sendingError) :
    ∀ packet ∈ formedPackets history,
      packet ∈ (sentPackets (history ++
        [⟨machine, .fire row environment, effects, next⟩])).map Prod.fst := by
  intro earlierPacket member
  have firing := cases.firing
  have source : machine.state ≠ .sendingError := by
    intro fails
    rw [fails] at firing
    exact ongoing firing.of_sendingError.1
  rw [sentPackets_concat, List.map_append, List.mem_append]
  rcases downloading.sent source earlierPacket member with was | ⟨reading, rfl⟩
  · exact .inl was
  · rw [reading] at firing
    rcases firing.of_dataRead with ⟨action, sends⟩ | fails
    · have packets := cases.packets
      rw [action, sends,
        if_pos (show State.sendingData.operation = some .send from rfl)]
        at packets
      rw [packets]
      exact .inr (List.mem_singleton.mpr rfl)
    · exact absurd fails other

theorem Downloading.pass
    (downloading : Downloading config size content history machine)
    {row : Row} {environment : Environment} {event : Option Event}
    {exitEffects : List Effect}
    (cases : FireCases machine row environment event exitEffects effects
      next)
    (after : next.WellFormed config) (ongoing : row.action ≠ .reset)
    (forms : row.action ≠ .formDataPacket) :
    Downloading config size content
        (history ++ [⟨machine, .fire row environment, effects, next⟩]) next ∧
      ∀ sent ∈ effects.filterMap Effect.packet,
        Packet.opCode sent.1 = .data →
          (formedPackets history).getLast? = some sent.1 := by
  obtain ⟨_, role, positioned, formed, _, _⟩ := id downloading
  have advance := role.fire environment event positioned cases.firing
    ongoing fun form => absurd form forms
  have entered : next.data =
      (row.action.run environment event machine.data).1 :=
    cases.data_eq advance.role.ne_accepting
  have count := advance.count
  rw [if_neg forms] at count
  have packet : Step.formedPacket
      ⟨machine, .fire row environment, effects, next⟩ = none := by
    simp [Step.formedPacket, Step.fires, forms]
  have same : formedPackets
      (history ++ [⟨machine, .fire row environment, effects, next⟩]) =
        formedPackets history := by
    rw [formedPackets_concat, packet, Option.toList_none, List.append_nil]
  refine ⟨⟨after, ?_, ?_, ?_, ?_, ?_⟩, ?_⟩
  · rw [entered, cases.state_eq]
    exact advance.role
  · rw [entered]
    exact advance.positioned
  · rw [same, formed, entered, count]
  · intro other earlierPacket member
    rw [same] at member
    rw [cases.state_eq] at other
    exact .inl (downloading.sent_of_pass cases ongoing other earlierPacket
      member)
  · intro starts
    have landing : row.target = .readRequestReceived :=
      cases.state_eq.symm.trans starts
    have firing := cases.firing
    rw [landing] at firing
    exact absurd firing.of_readRequestReceived.1 role.ne_accepting
  · rw [cases.packets]
    split
    · rename_i sends
      rintro out member opcode
      rw [List.mem_singleton] at member
      subst member
      rw [formed, ← count]
      exact advance.role.last sends opcode
    · simp

theorem Downloading.step {input : Input}
    (downloading : Downloading config size content history machine)
    (stepped : machine.step input = some (next, effects))
    (ongoing : ¬ Step.Fires ⟨machine, input, effects, next⟩ .reset)
    (reads : Step.readsFrom content ⟨machine, input, effects, next⟩ = true) :
    Downloading config size content
        (history ++ [⟨machine, input, effects, next⟩]) next ∧
      ∀ sent ∈ effects.filterMap Effect.packet,
        Packet.opCode sent.1 = .data →
          (formedPackets history).getLast? = some sent.1 := by
  have wellFormed := downloading.wellFormed
  rcases wellFormed.complete_or_fire stepped downloading.role.ne_accepting with
    ⟨completion, rfl⟩ | ⟨row, environment, rfl⟩
  · obtain ⟨_, packets, _⟩ := silent_of_not_fire stepped (by simp)
    exact ⟨downloading.complete stepped, by simp [packets]⟩
  · obtain ⟨event, exitEffects, cases⟩ := wellFormed.fireCases stepped
    have after := wellFormed.step stepped
    have resets : row.action ≠ .reset := fun resets =>
      ongoing ⟨row, environment, rfl, resets⟩
    by_cases forms : row.action = .formDataPacket
    · have reads : environment.content = content ∧
          environment.readError = none := by
        simpa [Step.readsFrom, forms] using reads
      refine ⟨downloading.form cases after forms reads.1 reads.2, ?_⟩
      have firing := cases.firing
      rw [forms] at firing
      rw [cases.packets, firing.of_formDataPacket.2,
        if_neg (by simp [State.operation])]
      simp
    · exact downloading.pass cases after resets forms

end Steps

section Transfers

variable {config : Config} {past rest : List Step} {accept : Step}
  {machine : Machine} {content : Bytes}

theorem opened_of_initServeReadRequest {environment : Environment}
    {request : RequestReceived} {data : SessionData}
    (closed : data.fileStream = {})
    (opened : (initServeReadRequest environment request
      data).1.fileStream.isOpen = true) :
    (initServeReadRequest environment request data).1.fileStream =
      { isOpen := true, readable := true } := by
  rw [initServeReadRequest_fileStream] at opened ⊢
  have closed : (openDataSocket environment data).fileStream = {} := closed
  generalize openDataSocket environment data = bound at closed opened ⊢
  simp only [openReadFile] at opened ⊢
  split at opened
  · split at opened
    · rename_i path _
      obtain ⟨_, _, frame⟩ :=
        setTransferSize_frame environment bound request path
      rw [frame] at opened ⊢
      exact fileStream_of_openFileStream closed opened
    · simp [closed] at opened
  · simp [closed] at opened

theorem Serving.downloading_start
    (serving : Serving config .initServeReadRequest past accept rest machine)
    (opened : accept.after.data.fileStream.isOpen = true)
    (content : Bytes) :
    Downloading config accept.after.data.agreedBlockSize content []
      accept.after := by
  obtain ⟨environment, request, pristine, next_eq⟩ := serving.start (.inl rfl)
  rw [SessionData.Pristine] at pristine
  have closed : accept.before.data.fileStream = {} := by
    rw [pristine]
    rfl
  have entered : accept.after.data =
      (initServeReadRequest environment request accept.before.data).1 := by
    rw [next_eq]
    rfl
  have state : accept.after.state = .readRequestReceived := by
    rw [next_eq]
    rfl
  have stream : accept.after.data.fileStream =
      { isOpen := true, readable := true } := by
    rw [entered] at opened ⊢
    exact opened_of_initServeReadRequest closed opened
  have count := (serving.counters_start (.inl rfl)).1
  refine ⟨serving.wellFormed_after, ?_, ⟨rfl, ?_, ?_, ?_, ?_⟩, ?_, ?_, ?_⟩
  · rw [state]
    exact count
  · rw [stream]
  · rw [stream]
  · simp [count]
  · intro _
    rw [stream, count]
    simp [FileStream.good]
  · rw [count]
    rfl
  · simp [formedPackets]
  · exact fun _ => rfl

theorem Serving.downloading
    (serving : Serving config .initServeReadRequest past accept rest machine)
    (opened : accept.after.data.fileStream.isOpen = true)
    (reads : ∀ step ∈ rest, Step.readsFrom content step = true) :
    Downloading config accept.after.data.agreedBlockSize content rest
      machine :=
  serving.split.2.2.history_invariant
    (fun step => ¬ Step.Fires step .reset ∧
      Step.readsFrom content step = true)
    (fun step member => ⟨serving.ongoing step member, reads step member⟩)
    (Downloading config accept.after.data.agreedBlockSize content)
    (serving.downloading_start opened content)
    fun _ _ downloading admitted ⟨ongoing, reads⟩ =>
      (downloading.step admitted ongoing reads).1

theorem Serving.received
    (serving : Serving config .initServeReadRequest past accept rest machine)
    (running : machine.tasks = [.process .packetReceived]) :
    ∃ earlier receipt sender datagram, rest = earlier ++ [receipt] ∧
      receipt.input = .complete (.received sender datagram) ∧
        receipt.before.state = machine.state ∧
          machine.data = receipt.before.data.received sender datagram := by
  rcases List.eq_nil_or_concat' rest with rfl | ⟨earlier, receipt, rfl⟩
  · obtain ⟨_, _, _, next_eq⟩ := serving.start (.inl rfl)
    obtain rfl := System.run_nil.mp serving.split.2.2
    rw [next_eq] at running
    simp at running
  · obtain ⟨before, admitted⟩ := serving.before
    obtain ⟨_, _, rfl⟩ := System.run_concat.mp serving.split.2.2
    obtain ⟨machine, input, effects, next⟩ := receipt
    have stepped : machine.step input = some (next, effects) := admitted
    have wellFormed : machine.WellFormed config := before.run.wellFormed
    have role := before.readRole.1
    rcases wellFormed.complete_or_fire stepped role.ne_accepting with
      ⟨completion, rfl⟩ | ⟨row, environment, rfl⟩
    · cases stepCases stepped with
      | complete settled idle started =>
          cases completion with
          | received sender datagram =>
              exact ⟨earlier, _, sender, datagram, rfl, rfl, rfl, rfl⟩
          | accepted sender datagram =>
              simp only [Completion.start] at running
              split at running <;> simp at running
          | _ => simp [Completion.start] at running
    · obtain ⟨event, exitEffects, cases⟩ := wellFormed.fireCases stepped
      have idle := cases.tasks_eq
      simp only at running idle
      simp [idle] at running

/-- A packet is formed first, or when the ACK of the one before it was
received. -/
theorem Serving.form
    (serving : Serving config .initServeReadRequest past accept rest machine)
    {size : Nat}
    (downloading : Downloading config size content rest machine)
    {target : State} {event : Option Event}
    (running : machine.tasks = event.toList.map Task.process)
    (firing : Firing machine.data machine.state (event.map Event.kind)
      .formDataPacket target) :
    rest = [] ∨ ∃ earlier ack, rest = earlier ++ [ack] ∧
      Step.Acknowledges ack (formedPackets rest).length ∧
        Outgoing (formedPackets rest) ack.before.data.outgoing := by
  rcases firing.of_formDataPacket.1 with starts | waits
  · exact .inl (downloading.first starts)
  · right
    rw [waits] at firing
    obtain ⟨kind, agreed, received, current⟩ := firing.of_nextBlock
    obtain rfl := Event.eq_packetReceived kind
    obtain ⟨earlier, ack, sender, datagram, rfl, receipt, state, data_eq⟩ :=
      serving.received running
    have role := downloading.role
    rw [waits] at role
    have outgoing := SessionData.Current.outgoing role
    rw [← downloading.formed] at outgoing
    have count : (formedPackets (earlier ++ [ack])).length =
        machine.data.lastSentBlock := by
      rw [downloading.formed, dataPackets_length]
    rw [count]
    rw [data_eq] at agreed received current outgoing ⊢
    obtain ⟨short, opcode, bound⟩ :=
      (hasAckReceived_received sender datagram).mp received
    rw [isOldAck_received sender datagram (by omega)] at current
    have below : ¬ (Packet.word datagram.bytes).toNat <
        ack.before.data.lastSentBlock := of_decide_eq_false current
    have known : sender = ack.before.data.agreedRemoteEndpoint :=
      beq_iff_eq.mp agreed
    exact ⟨earlier, ack, rfl,
      ⟨state.trans waits, datagram, by rw [receipt, known], short, opcode,
        Nat.le_antisymm bound (Nat.not_lt.mp below)⟩, outgoing⟩

/-- The final ACK finds the whole content sent. -/
theorem Downloading.delivered {size : Nat}
    (downloading : Downloading config size content rest machine)
    (final : machine.FinalAck) : Delivered size content rest := by
  obtain ⟨waits, _, _, acknowledged⟩ := final
  obtain ⟨_, role, positioned, formed, sent, _⟩ := downloading
  have done : machine.data.hasMoreToSend = false := by
    simp only [Guard.hasFinalAckReceived, Guard.and, Guard.eval,
      Bool.and_true, Bool.and_eq_true, Bool.not_eq_true'] at acknowledged
    exact acknowledged.2.2
  simp only [SessionData.hasMoreToSend, positioned.blockSize,
    Bool.or_eq_false_iff, beq_eq_false_iff_ne] at done
  obtain ⟨index, count⟩ := Nat.exists_eq_succ_of_ne_zero done.2
  have length := positioned.last index count
  have short : (block size content index).length < size := by
    have bound : (block size content index).length ≤ size := by
      rw [block_length]
      exact Nat.min_le_left _ _
    have other : (block size content index).length ≠ size := by
      rw [← length]
      exact done.1
    omega
  refine ⟨?_, ?_, ?_⟩
  · rw [formed, dataPackets_payload, count]
    exact flatten_of_short short
  · intro packet member
    rcases sent (by simp [waits]) packet member with was | ⟨reading, _⟩
    · exact was
    · simp [waits] at reading
  · refine ⟨Packet.dataPacket (UInt16.ofNat (index + 1))
      (block size content index), ?_, ?_, ?_⟩
    · rw [formed, count, Nat.succ_eq_add_one, dataPackets_succ]
      simp
    · rw [Packet.payload_dataPacket]
      exact short
    · intro divides
      rw [Packet.payload_dataPacket]
      exact eq_nil_of_dvd divides short

end Transfers

/-- A download is faithful, and its final ACK finds the whole content
delivered. -/
theorem download_faithful (config : Config) (past : List Step)
    (accept : Step) (rest : List Step) (machine : Machine) (content : Bytes)
    (serving : Serving config .initServeReadRequest past accept rest machine)
    (opened : accept.after.data.fileStream.isOpen = true)
    (reads : ∀ step ∈ rest, Step.readsFrom content step = true) :
    Faithful accept.after.data.agreedBlockSize content rest ∧
      (machine.FinalAck →
        Delivered accept.after.data.agreedBlockSize content rest) := by
  have downloading := serving.downloading opened reads
  refine ⟨⟨?_, ?_, ?_⟩, downloading.delivered⟩
  · rw [downloading.formed, dataPackets_length]
  · rintro before step after rfl ⟨row, environment, taken, forms⟩
    obtain ⟨earlier, admitted⟩ := serving.before
    have sofar := earlier.downloading opened
      fun other member => reads other (List.mem_append_left _ member)
    obtain ⟨source, input, effects, next⟩ := step
    have taken : input = .fire row environment := taken
    subst taken
    obtain ⟨event, exitEffects, cases⟩ := sofar.wellFormed.fireCases admitted
    have firing := cases.firing
    rw [forms] at firing
    exact earlier.form sofar cases.running firing
  · rintro before step after rfl
    obtain ⟨earlier, admitted⟩ := serving.before
    have sofar := earlier.downloading opened
      fun other member => reads other (List.mem_append_left _ member)
    exact (sofar.step admitted (serving.ongoing step (by simp))
      (reads step (by simp))).2

section Examples

/-- A request of the client for blocks of eight bytes. -/
private def smallBlocks : Datagram where
  bytes := (requestOf .readRequest).bytes ++
    (BlockSizeDecoder.kBlockSizeOption ++ [0]) ++ (asciiBytes ['8'] ++ [0])
  fits := by decide

private def tenBytes : Bytes :=
  [0, 1, 2, 3, 4, 5, 6, 7, 8, 9]

/-- A download of ten bytes, with an OACK, a repeated ACK and a time-out. -/
private def tenByteDownload : List (Completion × Environment) :=
  [(.accepted .client smallBlocks, { content := tenBytes }),
    (.sent false, { content := tenBytes }),
    (.received .client (ackOf 0), { content := tenBytes }),
    (.sent false, { content := tenBytes }),
    (.received .client (ackOf 0), { content := tenBytes }),
    (.receiveFailed, { content := tenBytes }),
    (.sent false, { content := tenBytes }),
    (.received .client (ackOf 1), { content := tenBytes }),
    (.sent false, { content := tenBytes }),
    (.received .client (ackOf 2), { content := tenBytes })]

/-- Ten bytes are delivered in two blocks. -/
theorem ten_bytes_delivered :
    ∃ past accept rest machine,
      Serving .loopback .initServeReadRequest past accept rest machine ∧
        machine.FinalAck ∧ Faithful 8 tenBytes rest ∧
          Delivered 8 tenBytes rest := by
  obtain ⟨history, step, run, _, passes⟩ :=
    exists_step_of_converse .loopback tenByteDownload
      (fun history step => checkTransfer .initServeReadRequest
        (fun accept rest machine => accept.after.data.fileStream.isOpen &&
          rest.all (Step.readsFrom tenBytes) &&
            decide (accept.after.data.agreedBlockSize = 8) &&
              decide machine.FinalAck) history step.before)
      (by decide +kernel)
  obtain ⟨past, accept, rest, serving, passes⟩ :=
    exists_serving_of_check run passes
  simp only [Bool.and_eq_true, decide_eq_true_eq, List.all_eq_true]
    at passes
  obtain ⟨⟨⟨opened, reads⟩, size⟩, final⟩ := passes
  have faithful := download_faithful .loopback past accept rest step.before
    tenBytes serving opened reads
  rw [size] at faithful
  exact ⟨past, accept, rest, step.before, serving, final, faithful.1,
    faithful.2 final⟩

end Examples

end MsmTftp
