import MsmTftp.SessionInvariant

/-!
# The packets a session forms

One specification for every action that fills the send buffer, and the opcode
of the packet each sending state hands to the socket.
-/

namespace MsmTftp

open CellBuffer TransitionSystem

variable {environment : Environment} {data : SessionData}

@[simp]
theorem outgoing_formAckPacket :
    (formAckPacket data).outgoing =
      Packet.ackPacket (UInt16.ofNat data.lastSavedBlock) := by
  simp only [SessionData.outgoing, formAckPacket, writeHeader,
    setWord_setOpCd]
  exact view_write_zero data.sendBuffer
    (Packet.header .acknowledgment (UInt16.ofNat data.lastSavedBlock))

@[simp]
theorem outgoing_formErrorPacketWith (code : UInt16) :
    (formErrorPacketWith code data).outgoing = Packet.errorPacket code := by
  simp only [SessionData.outgoing, formErrorPacketWith, writeHeader,
    setWord_setOpCd]
  exact view_write_behind data.sendBuffer (Packet.header .error code) [0]

theorem opCode_formErrorPacketWith (code : UInt16) :
    Packet.opCode (formErrorPacketWith code data).outgoing = .error := by
  simp

/-- The block a read delivers. -/
def SessionData.nextBlock (data : SessionData) (environment : Environment) :
    Bytes :=
  (data.fileStream.read environment.content environment.readError
    data.agreedBlockSize).2

/-- The stream after a block was read. -/
def SessionData.streamAfterRead (data : SessionData)
    (environment : Environment) : FileStream :=
  (data.fileStream.read environment.content environment.readError
    data.agreedBlockSize).1

theorem formDataPacket_of_not_bad
    (delivered : (data.streamAfterRead environment).bad = false) :
    formDataPacket environment data =
      { data with
        fileStream := data.streamAfterRead environment
        lastBlockSize := (data.nextBlock environment).length
        lastSentBlock := data.lastSentBlock + 1
        sendPacket :=
          HeaderView.size + (data.nextBlock environment).length
        sendBuffer :=
          writeHeader .data (UInt16.ofNat (data.lastSentBlock + 1))
            (write data.sendBuffer HeaderView.size
              (data.nextBlock environment)) } := by
  simp only [SessionData.streamAfterRead] at delivered
  simp only [formDataPacket, delivered, Bool.false_eq_true, if_false]
  rfl

theorem formDataPacket_of_bad
    (failed : (data.streamAfterRead environment).bad = true) :
    formDataPacket environment data =
      { data with
        fileStream := data.streamAfterRead environment
        sendBuffer := write data.sendBuffer HeaderView.size
          (data.nextBlock environment)
        lastErrorCode := some .diskFull } := by
  simp only [SessionData.streamAfterRead] at failed
  simp only [formDataPacket, failed, if_true]
  rfl

theorem outgoing_formDataPacket
    (delivered : (data.streamAfterRead environment).bad = false) :
    (formDataPacket environment data).outgoing =
      Packet.dataPacket (UInt16.ofNat (data.lastSentBlock + 1))
        (data.nextBlock environment) := by
  rw [formDataPacket_of_not_bad delivered]
  simp only [SessionData.outgoing, writeHeader, setWord_setOpCd]
  exact view_write_append data.sendBuffer
    (Packet.header .data (UInt16.ofNat (data.lastSentBlock + 1)))
    (data.nextBlock environment)

theorem outgoing_formOackPacket :
    (formOackPacket data).outgoing =
      wordBytes OpCode.optionAcknowledgment.value ++ oackOptions data := by
  simp only [SessionData.outgoing, formOackPacket, HeaderProxy.setOpCd,
    setWordAt]
  exact view_write_behind data.sendBuffer
    (wordBytes OpCode.optionAcknowledgment.value) (oackOptions data)

theorem opCode_formOackPacket :
    Packet.opCode (formOackPacket data).outgoing = .optionAcknowledgment := by
  rw [outgoing_formOackPacket]
  have read : getWord (ofList 0
      (wordBytes OpCode.optionAcknowledgment.value ++ oackOptions data)) 0 =
        OpCode.optionAcknowledgment.value :=
    getWord_write (oackOptions data) (Nat.le_refl 0) (by simp)
  simp [Packet.opCode, HeaderView.opCd, read]

/-- A packet is sent on entry to a sending state only, and it is the outgoing
packet, addressed to the agreed endpoint. -/
theorem entry_packets (state : State) :
    (state.entry data).2.filterMap Effect.packet =
      if state.operation = some .send then
        [(data.outgoing, data.agreedRemoteEndpoint)]
      else [] := by
  cases state <;> simp [State.entry, enterAccepting, enterSending,
    enterReceive, State.operation, Effect.packet]

/-- The packets sent while a row fires. -/
theorem fired_packets {state target : State} {event : Option Event}
    {action : Action} {exitEffects : List Effect} {acted entered : Outcome}
    (exits : state.exit data = some exitEffects)
    (acts : acted = action.run environment event data)
    (enters : entered = target.entry acted.1) :
    (exitEffects ++ acted.2 ++ entered.2).filterMap Effect.packet =
      if target.operation = some .send then
        [(acted.1.outgoing, acted.1.agreedRemoteEndpoint)]
      else [] := by
  subst acts enters
  have silentExit : exitEffects.filterMap Effect.packet = [] := by
    rcases exit_effects exits with rfl | rfl <;> rfl
  have silentAction : (action.run environment event data).2.filterMap
      Effect.packet = [] :=
    run_filterMap (fun _ _ => rfl) (fun _ => rfl) rfl rfl rfl
  simp [silentExit, silentAction, entry_packets]

/-- The bytes written while a row fires: only `WriteData` writes. -/
theorem fired_written {state target : State} {event : Option Event}
    {action : Action} {exitEffects : List Effect} {acted entered : Outcome}
    (exits : state.exit data = some exitEffects)
    (acts : acted = action.run environment event data)
    (enters : entered = target.entry acted.1) :
    (exitEffects ++ acted.2 ++ entered.2).filterMap Effect.written =
      if action = .writeData ∧
          (data.fileStream.write environment.acceptsWrite).2 = true then
        [Packet.payload data.incoming]
      else [] := by
  subst acts enters
  have silentExit : exitEffects.filterMap Effect.written = [] := by
    rcases exit_effects exits with rfl | rfl <;> rfl
  have silentEntry (outcome : SessionData) :
      (target.entry outcome).2.filterMap Effect.written = [] := by
    cases target <;> simp [State.entry, enterAccepting, enterSending,
      enterReceive, Effect.written]
  simp only [List.filterMap_append, silentExit, silentEntry,
    List.append_nil, List.nil_append]
  cases action with
  | writeData =>
      simp only [Action.run, writeData, true_and]
      split <;> split <;> rfl
  | initServeReadRequest =>
      simp only [Action.run, initServeReadRequest, openReadFile,
        openFileStream]
      repeat' split
      all_goals simp_all [Effect.written]
  | initServeWriteRequest =>
      simp only [Action.run, initServeWriteRequest, openWriteFile,
        openFileStream]
      repeat' split
      all_goals simp_all [Effect.written]
  | reset =>
      simp only [Action.run, resetSession]
      split <;> simp [Effect.written]
  | _ => rfl

section Received

variable (sender : Endpoint) (datagram : Datagram)

/-- The data with a packet that has been received. -/
def SessionData.received (data : SessionData) : SessionData :=
  (Completion.start data (.received sender datagram)).1

@[simp]
theorem incoming_received :
    (data.received sender datagram).incoming = datagram.bytes :=
  view_write_zero data.receiveBuffer datagram.bytes

theorem receivedOpCd_received (long : 2 ≤ datagram.bytes.length) :
    (data.received sender datagram).receivedOpCd =
      Packet.opCode datagram.bytes :=
  Packet.opCd_eq_opCode (incoming_received sender datagram) long

theorem receivedWord_received (long : 4 ≤ datagram.bytes.length) :
    (data.received sender datagram).receivedWord =
      Packet.word datagram.bytes :=
  Packet.word_eq_word (incoming_received sender datagram) long

@[simp]
theorem fromAgreedEndpoint_received :
    (data.received sender datagram).fromAgreedEndpoint =
      (sender == data.agreedRemoteEndpoint) :=
  rfl

theorem hasErrReceived_received :
    (data.received sender datagram).hasErrReceived = true ↔
      4 < datagram.bytes.length ∧
        Packet.opCode datagram.bytes = .error := by
  simp only [SessionData.hasErrReceived, Bool.and_eq_true,
    decide_eq_true_eq, beq_iff_eq]
  apply and_congr_right
  intro long
  have long : 4 < datagram.bytes.length := long
  rw [receivedOpCd_received sender datagram (by omega)]

theorem hasDataReceived_received :
    (data.received sender datagram).hasDataReceived = true ↔
      4 ≤ datagram.bytes.length ∧ Packet.opCode datagram.bytes = .data ∧
        sender = data.agreedRemoteEndpoint := by
  simp only [SessionData.hasDataReceived, Bool.and_eq_true,
    decide_eq_true_eq, beq_iff_eq, and_assoc]
  apply and_congr_right
  intro long
  have long : 4 ≤ datagram.bytes.length := long
  rw [receivedOpCd_received sender datagram (by omega)]
  rfl

theorem hasAckReceived_received :
    (data.received sender datagram).hasAckReceived = true ↔
      datagram.bytes.length = 4 ∧
        Packet.opCode datagram.bytes = .acknowledgment ∧
          (Packet.word datagram.bytes).toNat ≤ data.lastSentBlock := by
  simp only [SessionData.hasAckReceived, Bool.and_eq_true,
    decide_eq_true_eq, beq_iff_eq, and_assoc]
  apply and_congr_right
  intro long
  have long : datagram.bytes.length = 4 := long
  rw [receivedOpCd_received sender datagram (by omega),
    receivedWord_received sender datagram (by omega)]
  rfl

/-- A received number is compared with the one saved last. -/
theorem isOldData_received (long : 4 ≤ datagram.bytes.length) :
    (data.received sender datagram).isOldData =
      decide ((Packet.word datagram.bytes).toNat ≤ data.lastSavedBlock) := by
  rw [SessionData.isOldData, receivedWord_received sender datagram long]
  rfl

theorem isOldAck_received (long : 4 ≤ datagram.bytes.length) :
    (data.received sender datagram).isOldAck =
      decide ((Packet.word datagram.bytes).toNat < data.lastSentBlock) := by
  rw [SessionData.isOldAck, receivedWord_received sender datagram long]
  rfl

end Received

end MsmTftp
