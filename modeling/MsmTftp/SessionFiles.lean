import MsmTftp.ServerFiles
import MsmTftp.SessionSending

/-!
# The files of a session

A session opens the file that is found for the name in its request, and names
are free of NUL.  Its stream becomes readable only by a read request, and what
a DATA packet carries was read from the file that is open for reading.
-/

namespace MsmTftp

open CellBuffer TransitionSystem

section Names

variable {buffer : Buffer UInt8}

theorem findNul_ne_zero {count first position : Nat}
    (from_first : first ≤ position)
    (before : position < findNul buffer count first) :
    buffer position ≠ 0 := by
  induction count generalizing first with
  | zero =>
      rw [findNul] at before
      omega
  | succ count ih =>
      rw [findNul] at before
      split at before
      · omega
      · rename_i plain
        rcases Nat.eq_or_lt_of_le from_first with rfl | later
        · exact plain
        · exact ih later before

theorem nul_not_mem_cString (buffer : Buffer UInt8) (first : Nat) :
    0 ∉ cString buffer first := by
  intro member
  rw [cString, List.mem_map] at member
  obtain ⟨position, inside, ends⟩ := member
  rw [List.mem_range'_1] at inside
  rw [find] at inside
  split at inside
  · omega
  · have before : position < findNul buffer (kBufferSize - first) first := by
      omega
    exact findNul_ne_zero inside.1 before ends

theorem parseOptions_frame (rounds : Nat) (token : RequestTokenizer.Iterator)
    (request : RequestReceived) :
    ∃ blockSize timeOut transferSize,
      parseOptions buffer rounds token request =
        { request with blockSize, timeOut, transferSize } := by
  have stores (request : RequestReceived) (key value : Bytes) :
      ∃ blockSize timeOut transferSize, request.setOption key value =
        { request with blockSize, timeOut, transferSize } := by
    simp only [RequestReceived.setOption]
    repeat' split
    all_goals exact ⟨_, _, _, rfl⟩
  induction rounds generalizing token request with
  | zero => exact ⟨_, _, _, rfl⟩
  | succ rounds ih =>
      obtain ⟨_, _, _, stored⟩ := stores request (token.deref buffer)
        ((token.advance buffer).deref buffer)
      simp only [parseOptions, stored]
      repeat' split
      · exact ⟨_, _, _, rfl⟩
      · exact ⟨_, _, _, rfl⟩
      · obtain ⟨_, _, _, more⟩ := ih ((token.advance buffer).advance buffer)
          { request with
            blockSize := _
            timeOut := _
            transferSize := _ }
        exact ⟨_, _, _, more⟩

theorem nul_not_mem_fileName (bytesReceived : Nat) :
    0 ∉ (parseRequest buffer bytesReceived).fileName := by
  have nulFree := nul_not_mem_cString buffer
    (RequestTokenizer.first buffer ShortHeaderView.size
      bytesReceived).current
  simp only [parseRequest]
  repeat' split
  · exact nulFree
  · exact nulFree
  · obtain ⟨_, _, _, parsed⟩ := parseOptions_frame _ _ _
    rw [parsed]
    exact nulFree

/-- The requests that a handler has still to process are free of NUL in their
file names. -/
def Machine.Named (machine : Machine) : Prop :=
  ∀ request, .process (.requestReceived request) ∈ machine.tasks →
    0 ∉ request.fileName

theorem Machine.Named.step {machine next : Machine} {input : Input}
    {effects : List Effect} (named : machine.Named)
    (stepped : machine.step input = some (next, effects)) : next.Named := by
  intro request member
  cases stepCases stepped with
  | @complete completion settled idle started =>
      cases completion with
      | accepted sender datagram =>
          simp only [Completion.start] at member
          split at member <;> simp at member
      | _ => simp [Completion.start] at member
  | parse settled running =>
      rcases List.mem_cons.mp member with same | later
      · obtain rfl := Event.requestReceived.inj (Task.process.inj same)
        exact nul_not_mem_fileName _
      · exact named request (by
          rw [running]
          exact List.mem_cons_of_mem _ later)
  | fire settled running firing exits acts enters allEffects enabled =>
      exact named request (by
        rw [running]
        exact List.mem_append_right _ member)
  | reject settled running refused =>
      exact named request (by
        rw [running]
        exact List.mem_cons_of_mem _ member)

end Names

section Opening

variable {environment : Environment} {event : Option Event}
  {data : SessionData} {action : Action} {path : Bytes} {truncates : Bool}

/-- The call that finds the path of a requested file. -/
def Environment.filePath (environment : Environment) (truncates : Bool) :
    Bytes → Bytes → Option Bytes :=
  if truncates then environment.writeFilePath else environment.readFilePath

/-- The file that an action opens was requested and found. -/
theorem exists_request_of_openFile
    (opens : .openFile path truncates ∈
      (action.run environment event data).2) :
    ∃ request, event = some (.requestReceived request) ∧
      environment.filePath truncates data.rootPath request.fileName =
        some path := by
  have nothing (outcome : Outcome) (quiet : outcome.2 = []) :
      Effect.openFile path truncates ∉ outcome.2 := by
    simp [quiet]
  cases action with
  | initServeReadRequest =>
      cases event with
      | none => exact absurd opens (nothing _ rfl)
      | some event =>
          cases event with
          | requestReceived request =>
              refine ⟨request, rfl, ?_⟩
              simp only [Action.run, initServeReadRequest, openReadFile]
                at opens
              split at opens
              · split at opens
                · rename_i found
                  simp only [openFileStream, List.mem_singleton,
                    Effect.openFile.injEq] at opens
                  obtain ⟨rfl, rfl⟩ := opens
                  exact found
                · simp at opens
              · simp at opens
          | _ => exact absurd opens (nothing _ rfl)
  | initServeWriteRequest =>
      cases event with
      | none => exact absurd opens (nothing _ rfl)
      | some event =>
          cases event with
          | requestReceived request =>
              refine ⟨request, rfl, ?_⟩
              simp only [Action.run, initServeWriteRequest, openWriteFile]
                at opens
              split at opens
              · split at opens
                · rename_i found
                  simp only [openFileStream, List.mem_singleton,
                    Effect.openFile.injEq] at opens
                  obtain ⟨rfl, rfl⟩ := opens
                  exact found
                · simp at opens
              · simp at opens
          | _ => exact absurd opens (nothing _ rfl)
  | writeData =>
      rw [Action.run, writeData_effects] at opens
      split at opens <;> simp at opens
  | reset =>
      simp only [Action.run, resetSession] at opens
      split at opens <;> simp at opens
  | _ => exact absurd opens (nothing _ rfl)

end Opening

section Streams

variable {environment : Environment} {data : SessionData}

theorem readable_read (stream : FileStream) (content : Bytes)
    (error : Option Nat) (count : Nat) :
    (stream.read content error count).1.readable = stream.readable := by
  unfold FileStream.read
  repeat' split
  all_goals rfl

theorem readable_write (stream : FileStream) (accepted : Bool) :
    (stream.write accepted).1.readable = stream.readable := by
  unfold FileStream.write
  repeat' split
  all_goals rfl

/-- What an action does to the file stream. -/
inductive StreamCases (stream acted : FileStream) (action : Action) : Prop
  | keeps (isOpen : acted.isOpen = stream.isOpen)
      (readable : acted.readable = stream.readable)
  | opens (isOpen : acted.isOpen = true)
      (serves : action = .initServeReadRequest ∨
        action = .initServeWriteRequest)
      (readable : acted.readable = decide (action = .initServeReadRequest))
  | closes (isOpen : acted.isOpen = false) (readable : acted.readable = false)

theorem streamCases_open (stream : FileStream) (opened readable : Bool)
    {action : Action}
    (serves : action = .initServeReadRequest ∨
      action = .initServeWriteRequest)
    (mode : readable = decide (action = .initServeReadRequest)) :
    StreamCases stream (stream.open opened readable) action := by
  rw [FileStream.open]
  split
  · exact .opens rfl serves mode
  · exact .keeps rfl rfl

theorem streamCases (environment : Environment) (event : Option Event)
    (data : SessionData) (action : Action) :
    StreamCases data.fileStream
      (action.run environment event data).1.fileStream action := by
  cases action with
  | formDataPacket =>
      have stream : (formDataPacket environment data).fileStream =
          data.streamAfterRead environment := by
        cases bad : (data.streamAfterRead environment).bad with
        | true => rw [formDataPacket_of_bad bad]
        | false => rw [formDataPacket_of_not_bad bad]
      refine .keeps isOpen_formDataPacket ?_
      rw [Action.run, stream]
      exact readable_read _ _ _ _
  | writeData =>
      have stream : (writeData environment data).1.fileStream =
          (data.fileStream.write environment.acceptsWrite).1 := by
        simp only [writeData]
        split <;> rfl
      refine .keeps isOpen_writeData ?_
      rw [Action.run, stream]
      exact readable_write _ _
  | initServeReadRequest =>
      cases event with
      | none => exact .keeps rfl rfl
      | some event =>
          cases event with
          | requestReceived request =>
              have stream : (initServeReadRequest environment request
                  data).1.fileStream = _ := initServeReadRequest_fileStream
              rw [Action.run, stream, openReadFile]
              split
              · split
                · obtain ⟨_, _, sized⟩ := setTransferSize_frame environment
                    (openDataSocket environment data) request _
                  rw [sized]
                  exact streamCases_open _ _ _ (.inl rfl) rfl
                · exact .keeps rfl rfl
              · exact .keeps rfl rfl
          | _ => exact .keeps rfl rfl
  | initServeWriteRequest =>
      cases event with
      | none => exact .keeps rfl rfl
      | some event =>
          cases event with
          | requestReceived request =>
              simp only [Action.run, initServeWriteRequest, openWriteFile]
              split
              · split
                · exact streamCases_open _ _ _ (.inr rfl) rfl
                · exact .keeps rfl rfl
              · exact .keeps rfl rfl
          | _ => exact .keeps rfl rfl
  | reset => exact .closes rfl rfl
  | _ => exact .keeps rfl rfl

/-- What a read delivers is in the file that is open for reading. -/
theorem nextBlock_infix (data : SessionData) (environment : Environment) :
    data.nextBlock environment = [] ∨
      data.fileStream.readable = true ∧
        data.nextBlock environment <:+: environment.content := by
  unfold SessionData.nextBlock FileStream.read
  split
  · cases readable : data.fileStream.readable with
    | false =>
        left
        cases environment.readError <;> simp
    | true =>
        right
        have block := (List.take_prefix data.agreedBlockSize
          (environment.content.drop data.fileStream.position)).isInfix.trans
            (List.drop_suffix _ _).isInfix
        refine ⟨rfl, ?_⟩
        cases environment.readError with
        | none => exact block
        | some delivered => exact (List.take_prefix _ _).isInfix.trans block
  · exact .inl rfl

end Streams

section Sessions

variable {config : Config} {machine next : Machine} {input : Input}
  {effects : List Effect} {path packet : Bytes} {truncates : Bool}
  {history : List Step} {step : Step} {receiver : Endpoint}

theorem Machine.WellFormed.exists_request (wellFormed : machine.WellFormed config)
    (stepped : machine.step input = some (next, effects))
    (opens : .openFile path truncates ∈ effects) :
    ∃ row environment request, input = .fire row environment ∧
      machine.tasks = [.process (.requestReceived request)] ∧
        environment.filePath truncates config.rootPath request.fileName =
          some path := by
  have touching : .openFile path truncates ∈
      effects.filter Effect.touchesFile :=
    List.mem_filter.mpr ⟨opens, rfl⟩
  cases input with
  | complete completion =>
      cases stepCases stepped with
      | complete settled idle started =>
          cases completion <;> simp [Completion.start] at opens
  | parse =>
      cases stepCases stepped with
      | parse settled running => simp at touching
  | reject =>
      cases stepCases stepped with
      | reject settled running refused => simp at touching
  | fire row environment =>
      obtain ⟨event, exitEffects, cases⟩ := wellFormed.fireCases stepped
      rw [cases.touches] at touching
      obtain ⟨request, rfl, found⟩ :=
        exists_request_of_openFile (List.mem_filter.mp touching).1
      refine ⟨row, environment, request, rfl, cases.running, ?_⟩
      rw [← wellFormed.configured]
      exact found

theorem Machine.WellFormed.readable_step
    (wellFormed : machine.WellFormed config)
    (stepped : machine.step input = some (next, effects))
    (open_of_readable : machine.data.fileStream.readable = true →
      machine.data.fileStream.isOpen = true)
    (readable : next.data.fileStream.readable = true) :
    next.data.fileStream.isOpen = true ∧
      (machine.data.fileStream.readable = true ∨
        machine.state = .accepting ∧
          Step.Fires ⟨machine, input, effects, next⟩
            .initServeReadRequest) := by
  have keeps (same : next.data.fileStream = machine.data.fileStream) :
      next.data.fileStream.isOpen = true ∧
        machine.data.fileStream.readable = true := by
    rw [same] at readable ⊢
    exact ⟨open_of_readable readable, readable⟩
  cases input with
  | complete completion =>
      cases stepCases stepped with
      | complete settled idle started =>
          have same := keeps (by cases completion <;> rfl)
          exact ⟨same.1, .inl same.2⟩
  | parse =>
      cases stepCases stepped with
      | parse settled running => exact ⟨(keeps rfl).1, .inl (keeps rfl).2⟩
  | reject =>
      cases stepCases stepped with
      | reject settled running refused =>
          exact ⟨(keeps rfl).1, .inl (keeps rfl).2⟩
  | fire row environment =>
      obtain ⟨event, exitEffects, cases⟩ := wellFormed.fireCases stepped
      have stream : next.data.fileStream =
          (row.action.run environment event machine.data).1.fileStream := by
        rw [cases.next_eq, Machine.entering, entry_data]
        split <;> rfl
      rw [stream] at readable ⊢
      cases streamCases environment event machine.data row.action with
      | keeps isOpen same =>
          rw [same] at readable
          rw [isOpen]
          exact ⟨open_of_readable readable, .inl readable⟩
      | opens isOpen serves mode =>
          rw [mode, decide_eq_true_eq] at readable
          exact ⟨isOpen, .inr ⟨(cases.firing.of_initServe serves).1, row,
            environment, rfl, readable⟩⟩
      | closes isOpen shut =>
          rw [shut] at readable
          cases readable

/-- The block of a DATA packet was read from the file that is open for
reading. -/
theorem payload_of_formed (wellFormed : machine.WellFormed config)
    (stepped : machine.step input = some (next, effects))
    (formed : Step.formed ⟨machine, input, effects, next⟩ = some packet)
    (opcode : Packet.opCode packet = .data) :
    ∃ row environment, input = .fire row environment ∧
      row.action = .formDataPacket ∧
        (Packet.payload packet = [] ∨
          machine.data.fileStream.readable = true ∧
            Packet.payload packet <:+: environment.content) := by
  simp only [Step.formed, Option.ite_none_right_eq_some,
    Option.some.injEq] at formed
  obtain ⟨forms, rfl⟩ := formed
  cases input with
  | fire row environment =>
      obtain ⟨event, exitEffects, cases⟩ := wellFormed.fireCases stepped
      have kept : next.data.outgoing =
          (row.action.run environment event machine.data).1.outgoing ∧
            next.data.hasError =
              (row.action.run environment event machine.data).1.hasError := by
        rw [cases.next_eq, Machine.entering, entry_data]
        split <;> exact ⟨rfl, rfl⟩
      rw [kept.1] at opcode ⊢
      rw [kept.2] at forms
      simp only [Step.fires, Bool.or_eq_true, Bool.and_eq_true,
        decide_eq_true_eq, Bool.not_eq_true'] at forms
      rcases forms with (((forms | forms) | forms) | forms) | ⟨forms, noError⟩
      · rw [forms, Action.run, outgoing_formAckPacket,
          Packet.opCode_ackPacket] at opcode
        cases opcode
      · rw [forms, Action.run, formErrorPacket,
          opCode_formErrorPacketWith] at opcode
        cases opcode
      · rw [forms, Action.run, opCode_formOackPacket] at opcode
        cases opcode
      · rw [forms, Action.run, formProtocolErrorPacket,
          opCode_formErrorPacketWith] at opcode
        cases opcode
      · rw [forms, Action.run] at noError ⊢
        cases bad : (machine.data.streamAfterRead environment).bad with
        | true =>
            rw [formDataPacket_of_bad bad] at noError
            cases noError
        | false =>
            rw [outgoing_formDataPacket bad, Packet.payload_dataPacket]
            exact ⟨row, environment, rfl, forms,
              nextBlock_infix machine.data environment⟩
  | _ => simp [Step.fires] at forms

theorem mem_filterMap_packet {effects : List Effect} {packet : Bytes}
    {receiver : Endpoint} :
    (packet, receiver) ∈ effects.filterMap Effect.packet ↔
      .sendTo packet receiver ∈ effects := by
  rw [List.mem_filterMap]
  refine ⟨?_, fun sent => ⟨_, sent, rfl⟩⟩
  rintro ⟨effect, sent, carries⟩
  cases effect <;> cases carries
  exact sent

/-- Every packet sent was formed by a step of the session. -/
theorem Reaches.exists_formed
    (run : Reaches config (history ++ [step]) machine)
    (sent : .sendTo packet receiver ∈ step.outputs) :
    ∃ formed ∈ history ++ [step], Step.formed formed = some packet := by
  obtain ⟨before, admitted, rfl⟩ := System.run_concat.mp run
  have wellFormed := Reaches.wellFormed before
  obtain ⟨busy, sends, ongoing, rfl, rfl⟩ := busy_of_sends wellFormed admitted
    (mem_filterMap_packet.mpr sent)
  obtain ⟨_, action, past, accept, rest, rfl, transfer⟩ :=
    run.transfer_of_busy busy
  have cases := wellFormed.busyCases busy admitted ongoing
  have later : TransferFrom config step.before.data.agreedRemoteEndpoint
      action past accept (rest ++ [step]) step.after :=
    ⟨transfer.serving.extend ⟨rfl, admitted, rfl⟩ (by simpa using ongoing),
      transfer.serves, transfer.origin⟩
  obtain ⟨formed, member, same⟩ := (later.holdsPacket.2.of_sends sends).formed
  refine ⟨formed, ?_, same⟩
  rw [List.append_assoc, List.cons_append]
  exact List.mem_append_right _ (List.mem_cons_of_mem _ member)

end Sessions

end MsmTftp
