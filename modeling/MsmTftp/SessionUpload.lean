import MsmTftp.SessionRole
import MsmTftp.TransferBlocks

/-!
# Uploads

A session that serves a write request saves a block when its number exceeds
the number of the block saved last.  While no received block leaves a gap, the
bytes written are the payloads of the blocks received, in sequence, and every
ACK carries the number of blocks written.
-/

namespace MsmTftp

open CellBuffer TransitionSystem TransferBlocks

/-- The DATA packet of the agreed endpoint that the step receives. -/
def Step.receivedData (step : Step) : Option Bytes :=
  match step.input with
  | .complete (.received sender datagram) =>
      if sender = step.before.data.agreedRemoteEndpoint ∧
          4 ≤ datagram.bytes.length ∧
            Packet.opCode datagram.bytes = .data then
        some datagram.bytes
      else none
  | _ => none

/-- The DATA packets received from the agreed endpoint. -/
def receivedBlocks (history : List Step) : List Bytes :=
  history.filterMap Step.receivedData

/-- The block number of a packet. -/
def Packet.number (packet : Bytes) : Nat :=
  (Packet.word packet).toNat

/-- The blocks written are the blocks received from the agreed endpoint that
carry the numbers from one on, and every ACK carries the number of blocks
written when it is sent. -/
structure Intact (history : List Step) : Prop where
  saved : ∃ blocks, blocks.Sublist (receivedBlocks history) ∧
    Numbered Packet.number blocks ∧
      writtenBlocks history = blocks.map Packet.payload
  acknowledged : ∀ before (step : Step) after,
    history = before ++ step :: after →
    ∀ sent ∈ step.outputs.filterMap Effect.packet,
      Packet.opCode sent.1 = .acknowledgment →
        sent.1 = Packet.ackPacket
          (UInt16.ofNat (writtenBlocks (before ++ [step])).length)

/-- The file stream takes the bytes when the step saves a block. -/
def Step.writeSucceeds (step : Step) : Bool :=
  match step.input with
  | .fire row environment =>
      row.action != .writeData || environment.acceptsWrite
  | _ => true

/-- A DATA packet that leaves a gap is about to be processed. -/
def Machine.Skips (machine : Machine) : Prop :=
  machine.state = .waitingForData ∧
    machine.tasks = [.process .packetReceived] ∧
      machine.data.hasDataReceived = true ∧
        machine.data.lastSavedBlock + 1 < machine.data.receivedWord.toNat

instance (machine : Machine) : Decidable machine.Skips :=
  inferInstanceAs (Decidable (_ ∧ _))

/-- An ACK that is outgoing acknowledges the block saved last. -/
def SessionData.Acknowledges (data : SessionData) : Prop :=
  Packet.opCode data.outgoing = .acknowledgment →
    data.outgoing = Packet.ackPacket (UInt16.ofNat data.lastSavedBlock)

/-- The outgoing packet answers the client: it is no ERROR, and an ACK
acknowledges the block saved last. -/
def SessionData.Answers (data : SessionData) : Prop :=
  Packet.opCode data.outgoing ≠ .error ∧ data.Acknowledges

/-- What is outgoing while a write request is served, also after a crossing:
only the packet of `SendingError` is an ERROR. -/
def UploadRole (data : SessionData) : State → Prop
  | .writeRequestReceived | .dataWritten => True
  | .dataRead => data.hasError = false → data.Answers
  | .sendingAck | .waitingForData | .sendingData | .waitingForAck =>
      data.Answers
  | .sendingError => Packet.opCode data.outgoing = .error
  | _ => False

section Fields

variable {data : SessionData} {environment : Environment}

/-- The data after the received block was saved. -/
def SessionData.saved (data : SessionData) : SessionData :=
  { data with
    lastBlockSize := data.receivedPacket - HeaderView.size
    lastSavedBlock := data.receivedWord.toNat }

theorem writeData_of_good (good : data.fileStream.good = true)
    (succeeds : environment.acceptsWrite = true) :
    writeData environment data =
      (data.saved, [.writeFile (Packet.payload data.incoming)]) := by
  have sound : data.fileStream.fail = false := by
    simp only [FileStream.good, Bool.not_eq_true', Bool.or_eq_false_iff]
      at good
    simp [FileStream.fail, good]
  simp [writeData, FileStream.write, good, succeeds, sound,
    SessionData.saved]

theorem FileStream.write_refused {stream : FileStream} {accepted : Bool}
    (refused : (stream.good && accepted) = false) :
    (stream.write accepted).2 = false ∧
      (stream.write accepted).1.fail = true := by
  unfold FileStream.write
  cases good : stream.good with
  | true =>
      have fails : accepted = false := by simpa [good] using refused
      simp [fails, FileStream.fail]
  | false => simp [FileStream.fail]

theorem writeData_of_refused
    (refused : (data.fileStream.good && environment.acceptsWrite) = false) :
    writeData environment data =
      ({ data with
          fileStream := (data.fileStream.write environment.acceptsWrite).1
          lastErrorCode := some .diskFull }, []) := by
  obtain ⟨taken, fails⟩ := FileStream.write_refused refused
  simp only [writeData, taken, fails, if_true, Bool.false_eq_true, if_false]

theorem answers_formDataPacket
    (noError : (formDataPacket environment data).hasError = false) :
    (formDataPacket environment data).Answers := by
  rcases outstanding_formDataPacket noError with
    ⟨_, oack⟩ | ⟨_, payload, block⟩
  · constructor
    · rw [oack]
      decide
    · intro ack
      rw [oack] at ack
      exact absurd ack (by decide)
  · constructor
    · rw [block, Packet.opCode_dataPacket]
      decide
    · intro ack
      rw [block, Packet.opCode_dataPacket] at ack
      exact absurd ack (by decide)

theorem answers_formAckPacket : (formAckPacket data).Answers := by
  constructor
  · rw [outgoing_formAckPacket, Packet.opCode_ackPacket]
    decide
  · exact fun _ => outgoing_formAckPacket

end Fields

section Steps

variable {data : SessionData} {source target : State}
  {event : Option EventKind} {action : Action} {environment : Environment}
  {happens : Option Event}

theorem UploadRole.busy {state : State} (role : UploadRole data state) :
    state.busy = true := by
  cases state <;> first | rfl | exact role.elim

theorem UploadRole.start {state : State} (completion : Completion) :
    UploadRole (completion.start data).1 state ↔ UploadRole data state := by
  cases completion <;> exact Iff.rfl

/-- Rows other than `Reset` keep the role of an upload. -/
theorem UploadRole.fire (role : UploadRole data source)
    (firing : Firing data source event action target)
    (ongoing : action ≠ .reset) :
    UploadRole (action.run environment happens data).1 target := by
  cases firing with
  | grantWrite noError => exact answers_formAckPacket
  | refuseWrite error => exact opCode_formErrorPacketWith _
  | ackSent => exact role
  | resendAck retry => exact role
  | notData agreed other => exact opCode_formErrorPacketWith _
  | oldData ignored => exact role
  | newData agreed received new => trivial
  | dataSaved noError => exact answers_formAckPacket
  | saveFailed error => exact opCode_formErrorPacketWith _
  | blockRead noError => exact role noError
  | readFailed error => exact opCode_formErrorPacketWith _
  | dataSent => exact role
  | resendData retry => exact role
  | notAck agreed other => exact opCode_formErrorPacketWith _
  | oldAck ignored => exact role
  | nextBlock agreed received current more => exact answers_formDataPacket
  | giveUpWrite exhausted => exact absurd rfl ongoing
  | giveUpRead exhausted => exact absurd rfl ongoing
  | finish final => exact absurd rfl ongoing
  | errorSent => exact absurd rfl ongoing
  | _ => exact role.elim

theorem UploadRole.lastSavedBlock (role : UploadRole data source)
    (environment : Environment) (happens : Option Event)
    (firing : Firing data source event action target)
    (ongoing : action ≠ .reset) (other : action ≠ .writeData) :
    (action.run environment happens data).1.lastSavedBlock =
      data.lastSavedBlock := by
  have kept := run_keepsSession environment happens data ongoing
  apply kept.counters.saved other
  rintro rfl
  cases firing with
  | announceOptions options => exact role.elim

theorem UploadRole.acknowledges {state : State} (role : UploadRole data state)
    (sends : state.operation = some .send) : data.Acknowledges := by
  cases state with
  | sendingAck => exact And.right role
  | sendingData => exact And.right role
  | sendingError =>
      have error : Packet.opCode data.outgoing = .error := role
      intro ack
      rw [error] at ack
      exact absurd ack (by decide)
  | _ => simp [State.operation] at sends

theorem UploadRole.opCode_ne {state : State} (role : UploadRole data state)
    (sends : state.operation = some .send) (other : state ≠ .sendingError) :
    Packet.opCode data.outgoing ≠ .error := by
  cases state with
  | sendingAck => exact And.left role
  | sendingData => exact And.left role
  | sendingError => exact absurd rfl other
  | _ => simp [State.operation] at sends

/-- The rows that stay on the write side only save blocks. -/
theorem Firing.of_writeSide (environment : Environment)
    (happens : Option Event)
    (firing : Firing data source event action target)
    (busy : source.busy = true) (side : target.writeSide = true)
    (other : action ≠ .writeData) :
    source.writeSide = true ∧
      (action.run environment happens data).1.fileStream = data.fileStream ∧
      (action.run environment happens data).1.hasError = data.hasError ∧
      (action.run environment happens data).1.lastBlockSize =
        data.lastBlockSize := by
  cases firing with
  | newData agreed received new => exact absurd rfl other
  | acceptWrite noError opcode => simp [State.busy] at busy
  | grantWrite noError => exact ⟨rfl, rfl, rfl, rfl⟩
  | ackSent => exact ⟨rfl, rfl, rfl, rfl⟩
  | resendAck retry => exact ⟨rfl, rfl, rfl, rfl⟩
  | dataSaved noError => exact ⟨rfl, rfl, rfl, rfl⟩
  | _ => simp [State.writeSide] at side

theorem BusyCases.uploadRole {machine next : Machine} {input : Input}
    {effects : List Effect} (cases : BusyCases machine input effects next)
    (role : UploadRole machine.data machine.state) :
    UploadRole next.data next.state := by
  cases cases with
  | complete idle uses drives => exact (UploadRole.start _).mpr role
  | fire cases ongoing busy data_eq =>
      rw [data_eq, cases.state_eq]
      exact role.fire cases.firing ongoing

theorem BusyCases.lastSavedBlock {machine next : Machine} {input : Input}
    {effects : List Effect} (cases : BusyCases machine input effects next)
    (role : UploadRole machine.data machine.state)
    (unwritten : effects.filterMap Effect.written = []) :
    next.data.lastSavedBlock = machine.data.lastSavedBlock := by
  cases cases with
  | @complete completion idle uses drives => cases completion <;> rfl
  | @fire row environment event _ _ _ cases ongoing busy data_eq =>
      rw [data_eq]
      by_cases writes : row.action = .writeData
      · have written := cases.written
        rw [unwritten] at written
        have refused :
            (machine.data.fileStream.good && environment.acceptsWrite) =
              false := by
          by_contra taken
          simp only [Bool.not_eq_false, Bool.and_eq_true] at taken
          simp [writes, FileStream.write, taken] at written
        rw [writes, Action.run, writeData_of_refused refused]
      · exact role.lastSavedBlock environment event cases.firing ongoing writes

theorem Serving.uploadRole {config : Config} {past rest : List Step}
    {accept : Step} {machine : Machine}
    (serving : Serving config .initServeWriteRequest past accept rest
      machine) : UploadRole machine.data machine.state := by
  obtain ⟨_, _, _, start⟩ := serving.start (.inr rfl)
  apply serving.history_invariant (.inr rfl) (fun _ => True)
    (fun _ _ => trivial) fun _ machine => UploadRole machine.data machine.state
  · rw [start]
    trivial
  · intro _ _ _ _ _ _ _ role cases _
    exact cases.uploadRole role

end Steps

/-- The blocks an upload has saved, and the one it may be about to save. -/
structure Saves (history : List Step) (machine : Machine)
    (blocks : List Bytes) : Prop where
  numbered : Numbered Packet.number blocks
  count : machine.data.lastSavedBlock = blocks.length
  written : writtenBlocks history = blocks.map Packet.payload
  received : blocks.Sublist (receivedBlocks history)
  pending : machine.tasks = [.process .packetReceived] →
    machine.data.hasDataReceived = true →
      (blocks ++ [machine.data.incoming]).Sublist (receivedBlocks history)

section Saving

variable {config : Config} {machine next : Machine} {history : List Step}
  {blocks : List Bytes} {effects : List Effect}

theorem receivedBlocks_concat (history : List Step) (step : Step) :
    receivedBlocks (history ++ [step]) =
      receivedBlocks history ++ step.receivedData.toList := by
  cases received : step.receivedData <;> simp [receivedBlocks, received]

theorem Saves.complete (saves : Saves history machine blocks)
    {completion : Completion}
    (stepped : machine.step (.complete completion) = some (next, effects)) :
    Saves (history ++ [⟨machine, .complete completion, effects, next⟩])
      next blocks := by
  obtain ⟨_, _, written⟩ := silent_of_not_fire stepped (by simp)
  obtain ⟨numbered, count, saved, received, pending⟩ := saves
  cases stepCases stepped with
  | complete settled idle started =>
      refine ⟨numbered, ?_, ?_, ?_, ?_⟩
      · rw [← count]
        cases completion <;> rfl
      · rw [writtenBlocks_concat, written, List.append_nil, saved]
      · rw [receivedBlocks_concat]
        exact received.trans (List.sublist_append_left _ _)
      · intro running hasData
        cases completion with
        | received sender datagram =>
            have arrived :=
              (hasDataReceived_received sender datagram).mp hasData
            obtain ⟨long, opcode, agreed⟩ := arrived
            rw [receivedBlocks_concat]
            have shown : (Completion.start machine.data
                (.received sender datagram)).1.incoming = datagram.bytes :=
              incoming_received sender datagram
            simp only [Step.receivedData, agreed, long, opcode, and_self,
              if_true, Option.toList_some]
            rw [← agreed, shown]
            exact received.append (List.Sublist.refl _)
        | accepted sender datagram =>
            simp only [Completion.start] at running
            split at running <;> simp at running
        | _ => simp [Completion.start] at running

theorem Saves.save (saves : Saves history machine blocks) {row : Row}
    {environment : Environment} {event : Option Event}
    {exitEffects : List Effect}
    (cases : FireCases machine row environment event exitEffects effects
      next)
    (saved : row.action = .writeData)
    (good : machine.data.fileStream.good = true)
    (succeeds : environment.acceptsWrite = true)
    (inOrder : ¬ machine.Skips) :
    Saves (history ++ [⟨machine, .fire row environment, effects, next⟩]) next
      (blocks ++ [machine.data.incoming]) := by
  have firing := cases.firing
  rw [saved] at firing
  obtain ⟨waits, kind, target, hasData, new⟩ := firing.of_writeData
  have running : machine.tasks = [.process .packetReceived] := by
    rw [cases.running, Event.eq_packetReceived kind]
    rfl
  have long : HeaderView.size ≤ machine.data.receivedPacket := by
    simp only [SessionData.hasDataReceived, Bool.and_eq_true,
      decide_eq_true_eq] at hasData
    exact hasData.1.1
  have word : machine.data.receivedWord =
      Packet.word machine.data.incoming :=
    Packet.word_eq_word rfl long
  have follows : machine.data.receivedWord.toNat =
      machine.data.lastSavedBlock + 1 := by
    have above : ¬ machine.data.receivedWord.toNat ≤
        machine.data.lastSavedBlock := by
      simpa [SessionData.isOldData] using new
    have below : ¬ machine.data.lastSavedBlock + 1 <
        machine.data.receivedWord.toNat :=
      fun skips => inOrder ⟨waits, running, hasData, skips⟩
    omega
  have written : effects.filterMap Effect.written =
      [Packet.payload machine.data.incoming] := by
    simp [cases.written, saved, FileStream.write, good, succeeds]
  have data_eq : next.data = (writeData environment machine.data).1 := by
    rw [cases.data_eq (by simp [target]), saved]
    rfl
  refine ⟨saves.numbered.concat ?_, ?_, ?_, ?_, ?_⟩
  · rw [Packet.number, ← word, follows, saves.count]
  · rw [data_eq, writeData_of_good good succeeds]
    simp [SessionData.saved, follows, saves.count]
  · rw [writtenBlocks_concat, written, saves.written]
    simp
  · rw [receivedBlocks_concat]
    exact (saves.pending running hasData).trans
      (List.sublist_append_left _ _)
  · intro running
    simp [cases.tasks_eq] at running

theorem Saves.pass (saves : Saves history machine blocks) {row : Row}
    {environment : Environment} {event : Option Event}
    {exitEffects : List Effect}
    (cases : FireCases machine row environment event exitEffects effects
      next)
    (role : UploadRole machine.data machine.state)
    (serving : row.target ≠ .accepting)
    (ongoing : row.action ≠ .reset) (other : row.action ≠ .writeData) :
    Saves (history ++ [⟨machine, .fire row environment, effects, next⟩]) next
      blocks := by
  refine ⟨saves.numbered, ?_, ?_, ?_, ?_⟩
  · rw [cases.data_eq serving,
      role.lastSavedBlock environment event cases.firing ongoing other,
      saves.count]
  · rw [writtenBlocks_concat, cases.written, if_neg (by simp [other]),
      List.append_nil, saves.written]
  · rw [receivedBlocks_concat]
    exact saves.received.trans (List.sublist_append_left _ _)
  · intro running
    simp [cases.tasks_eq] at running

end Saving

/-- The invariant of an upload. -/
structure Uploading (config : Config) (history : List Step)
    (machine : Machine) : Prop where
  wellFormed : machine.WellFormed config
  role : UploadRole machine.data machine.state
  good : machine.state.writeSide = true → machine.data.fileStream.good = true
  saves : ∃ blocks, Saves history machine blocks

theorem Uploading.fire {config : Config} {history : List Step}
    {machine next : Machine} {row : Row} {environment : Environment}
    {event : Option Event} {exitEffects effects : List Effect}
    (uploading : Uploading config history machine)
    (formed : next.WellFormed config)
    (cases : FireCases machine row environment event exitEffects effects
      next)
    (resets : row.action ≠ .reset)
    (accepts : row.action = .writeData → environment.acceptsWrite = true)
    (inOrder : ¬ machine.Skips) :
    Uploading config
        (history ++ [⟨machine, .fire row environment, effects, next⟩]) next ∧
      ∀ sent ∈ effects.filterMap Effect.packet,
        Packet.opCode sent.1 = .acknowledgment →
          sent.1 = Packet.ackPacket
            (UInt16.ofNat (writtenBlocks (history ++
              [⟨machine, .fire row environment, effects, next⟩])).length) := by
  obtain ⟨_, role, good, blocks, saves⟩ := uploading
  have acted : UploadRole
      (row.action.run environment event machine.data).1 row.target :=
    role.fire cases.firing resets
  have serving : row.target ≠ .accepting :=
    State.ne_accepting_of_busy acted.busy
  have entered : next.data =
      (row.action.run environment event machine.data).1 :=
    cases.data_eq serving
  have stream : row.action = .writeData →
      machine.data.fileStream.good = true := by
    intro saved
    have firing := cases.firing
    rw [saved] at firing
    apply good
    rw [firing.of_writeData.1]
    rfl
  have later : ∃ blocks,
      Saves (history ++ [⟨machine, .fire row environment, effects, next⟩])
        next blocks := by
    by_cases saved : row.action = .writeData
    · exact ⟨_, saves.save cases saved (stream saved) (accepts saved) inOrder⟩
    · exact ⟨_, saves.pass cases role serving resets saved⟩
  refine ⟨⟨formed, ?_, ?_, later⟩, ?_⟩
  · rw [entered, cases.state_eq]
    exact acted
  · rw [entered, cases.state_eq]
    intro side
    by_cases saved : row.action = .writeData
    · rw [saved, Action.run, writeData_of_good (stream saved) (accepts saved)]
      exact stream saved
    · obtain ⟨before, same, _⟩ :=
        cases.firing.of_writeSide environment event role.busy side saved
      rw [same]
      exact good before
  · obtain ⟨blocks, saves⟩ := later
    rw [saves.written, List.length_map, ← saves.count, entered,
      cases.packets]
    split
    · rename_i sends
      rintro sent member
      rw [List.mem_singleton] at member
      subst member
      exact acted.acknowledges sends
    · simp

/-- Every step other than `Reset` keeps the invariant, and its ACK carries the
number of blocks written. -/
theorem Uploading.step {config : Config} {history : List Step}
    {machine next : Machine} {input : Input} {effects : List Effect}
    (uploading : Uploading config history machine)
    (stepped : machine.step input = some (next, effects))
    (ongoing : ¬ Step.Fires ⟨machine, input, effects, next⟩ .reset)
    (succeeds : Step.writeSucceeds ⟨machine, input, effects, next⟩ = true)
    (inOrder : ¬ machine.Skips) :
    Uploading config (history ++ [⟨machine, input, effects, next⟩]) next ∧
      ∀ sent ∈ effects.filterMap Effect.packet,
        Packet.opCode sent.1 = .acknowledgment →
          sent.1 = Packet.ackPacket
            (UInt16.ofNat (writtenBlocks
              (history ++ [⟨machine, input, effects, next⟩])).length) := by
  have wellFormed := uploading.wellFormed
  have formed := wellFormed.step stepped
  have serving := State.ne_accepting_of_busy uploading.role.busy
  rcases wellFormed.complete_or_fire stepped serving with
    ⟨completion, rfl⟩ | ⟨row, environment, rfl⟩
  · obtain ⟨_, packets, _⟩ := silent_of_not_fire stepped (by simp)
    obtain ⟨blocks, saves⟩ := uploading.saves
    have later := saves.complete stepped
    cases stepCases stepped with
    | complete settled idle started =>
        have role := (UploadRole.start completion).mpr uploading.role
        refine ⟨⟨formed, role, fun side => ?_, _, later⟩, by simp [packets]⟩
        have good := uploading.good side
        cases completion <;> exact good
  · obtain ⟨event, exitEffects, cases⟩ := wellFormed.fireCases stepped
    apply uploading.fire formed cases _ _ inOrder
    · intro resets
      exact ongoing ⟨row, environment, rfl, resets⟩
    · intro saved
      simpa [Step.writeSucceeds, saved] using succeeds

section Transfers

variable {config : Config} {past rest : List Step} {accept : Step}
  {machine : Machine}

theorem good_of_initServeWriteRequest {environment : Environment}
    {request : RequestReceived} {data : SessionData}
    (closed : data.fileStream = {})
    (opened : (initServeWriteRequest environment request
      data).1.fileStream.isOpen = true) :
    (initServeWriteRequest environment request data).1.fileStream.good =
      true := by
  have closed : (openDataSocket environment data).fileStream = {} := closed
  simp only [initServeWriteRequest, openWriteFile] at opened ⊢
  split at opened
  · split at opened
    · rw [fileStream_of_openFileStream closed opened]
      rfl
    · simp [closed] at opened
  · simp [closed] at opened

theorem Serving.uploading_start
    (serving : Serving config .initServeWriteRequest past accept rest machine)
    (opened : accept.after.data.fileStream.isOpen = true) :
    Uploading config [] accept.after := by
  obtain ⟨environment, request, pristine, next_eq⟩ := serving.start (.inr rfl)
  rw [SessionData.Pristine] at pristine
  have closed : accept.before.data.fileStream = {} := by
    rw [pristine]
    rfl
  have entered : accept.after.data =
      (initServeWriteRequest environment request accept.before.data).1 := by
    rw [next_eq]
    rfl
  refine ⟨serving.wellFormed_after, ?_, fun _ => ?_, [], numbered_nil, ?_,
    rfl, List.nil_sublist _, ?_⟩
  · rw [next_eq]
    trivial
  · rw [entered] at opened ⊢
    exact good_of_initServeWriteRequest closed opened
  · exact (serving.counters_start (.inr rfl)).2.1
  · intro running
    rw [next_eq] at running
    simp at running

theorem Serving.uploading
    (serving : Serving config .initServeWriteRequest past accept rest machine)
    (opened : accept.after.data.fileStream.isOpen = true)
    (succeeds : ∀ step ∈ rest, Step.writeSucceeds step = true)
    (inOrder : ∀ step ∈ rest, ¬ Machine.Skips (Transition.before step)) :
    Uploading config rest machine :=
  serving.split.2.2.history_invariant
    (fun step => ¬ Step.Fires step .reset ∧
      Step.writeSucceeds step = true ∧ ¬ Machine.Skips step.before)
    (fun step member => ⟨serving.ongoing step member, succeeds step member,
      inOrder step member⟩)
    (Uploading config) (serving.uploading_start opened)
    fun _ _ uploading admitted ⟨ongoing, succeeds, inOrder⟩ =>
      (uploading.step admitted ongoing succeeds inOrder).1

end Transfers

/-- An upload is intact as long as no received block leaves a gap. -/
theorem upload_intact (config : Config) (past : List Step) (accept : Step)
    (rest : List Step) (machine : Machine)
    (serving : Serving config .initServeWriteRequest past accept rest machine)
    (opened : accept.after.data.fileStream.isOpen = true)
    (succeeds : ∀ step ∈ rest, Step.writeSucceeds step = true)
    (inOrder : ∀ step ∈ rest, ¬ Machine.Skips (Transition.before step)) :
    Intact rest := by
  obtain ⟨_, _, _, blocks, saves⟩ :=
    serving.uploading opened succeeds inOrder
  refine ⟨⟨blocks, saves.received, saves.numbered, saves.written⟩, ?_⟩
  rintro before step after rfl
  obtain ⟨earlier, admitted⟩ := serving.before
  have uploading := earlier.uploading opened
    (fun other member => succeeds other (List.mem_append_left _ member))
    (fun other member => inOrder other (List.mem_append_left _ member))
  exact (uploading.step admitted (serving.ongoing step (by simp))
    (succeeds step (by simp)) (inOrder step (by simp))).2

section Examples

/-- A run of an upload from the client, with the DATA packets given by their
numbers and payloads. -/
private def uploadOf (blocks : List (UInt16 × UInt8)) :
    List (Completion × Environment) :=
  (.accepted .client (requestOf .writeRequest), {}) :: (.sent false, {}) ::
    blocks.flatMap fun block =>
      [(.received .client ⟨Packet.dataPacket block.1 [block.2],
          Nat.le_of_ble_eq_true rfl⟩, {}), (.sent false, {})]

/-- An upload of two blocks in sequence. -/
theorem two_blocks_intact :
    ∃ past accept rest machine,
      Serving .loopback .initServeWriteRequest past accept rest machine ∧
        writtenBlocks rest = [[7], [8]] ∧ Intact rest := by
  obtain ⟨past, accept, rest, machine, serving, passes⟩ :=
    exists_serving_of_converse .initServeWriteRequest
      (uploadOf [(1, 7), (2, 8)])
      (fun accept rest _ => accept.after.data.fileStream.isOpen &&
        rest.all Step.writeSucceeds &&
          (rest.all fun step => decide (¬ Machine.Skips step.before)) &&
            decide (writtenBlocks rest = [[7], [8]]))
      (by decide +kernel)
  simp only [Bool.and_eq_true, decide_eq_true_eq, List.all_eq_true]
    at passes
  obtain ⟨⟨⟨opened, succeeds⟩, inOrder⟩, written⟩ := passes
  exact ⟨past, accept, rest, machine, serving, written,
    upload_intact .loopback past accept rest machine serving opened succeeds
      inOrder⟩

/-- When every block received is written, an intact upload received its blocks
in sequence. -/
private theorem Intact.numbered {history : List Step}
    (intact : Intact history)
    (all : (writtenBlocks history).length =
      (receivedBlocks history).length) :
    Numbered Packet.number (receivedBlocks history) := by
  obtain ⟨blocks, received, numbered, written⟩ := intact.saved
  rw [written, List.length_map] at all
  exact received.eq_of_length all ▸ numbered

/-- The blocks 1 and 3 are both written, and both are acknowledged. -/
theorem gap_written :
    ∃ past accept rest machine,
      Serving .loopback .initServeWriteRequest past accept rest machine ∧
        accept.after.data.fileStream.isOpen = true ∧
          (∀ step ∈ rest, Step.writeSucceeds step = true) ∧
            writtenBlocks rest = [[7], [8]] ∧ ¬ Intact rest := by
  obtain ⟨past, accept, rest, machine, serving, passes⟩ :=
    exists_serving_of_converse .initServeWriteRequest
      (uploadOf [(1, 7), (3, 8)])
      (fun accept rest _ => accept.after.data.fileStream.isOpen &&
        rest.all Step.writeSucceeds &&
          decide (writtenBlocks rest = [[7], [8]]) &&
            decide (receivedBlocks rest =
              [Packet.dataPacket 1 [7], Packet.dataPacket 3 [8]]))
      (by decide +kernel)
  simp only [Bool.and_eq_true, decide_eq_true_eq, List.all_eq_true]
    at passes
  obtain ⟨⟨⟨opened, succeeds⟩, written⟩, received⟩ := passes
  refine ⟨past, accept, rest, machine, serving, opened, succeeds, written, ?_⟩
  intro intact
  have numbered := intact.numbered (by rw [written, received]; rfl)
  rw [received] at numbered
  simp only [Numbered, Packet.number, List.map_cons, List.map_nil,
    Packet.word_dataPacket] at numbered
  exact absurd numbered (by decide)

end Examples

end MsmTftp
