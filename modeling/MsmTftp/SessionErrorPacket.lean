import MsmTftp.SessionConversation
import MsmTftp.SessionHandler

/-!
# Error packets of the client

An error packet of the agreed endpoint is neither a DATA nor an ACK packet, so
the row for protocol errors is enabled for it in both waiting states and
answers it by another error packet.  The row that resets on an error packet
stands beside it in `WaitingForAck` only, and only for packets of more than
four bytes.
-/

namespace MsmTftp

open CellBuffer TransitionSystem

/-- The packet reports an error of the client. -/
structure Datagram.Reports (datagram : Datagram) : Prop where
  long : 4 ≤ datagram.bytes.length
  opcode : Packet.opCode datagram.bytes = .error

/-- Whatever row fires for a packet of the agreed endpoint, the handler resets
the session and sends nothing. -/
def EndsQuietly (machine : Machine) (datagram : Datagram) : Prop :=
  ∀ history next, Handles machine
    (.received machine.data.agreedRemoteEndpoint datagram) history next →
      (∃ step ∈ history, Step.Fires step .reset) ∧ sentPackets history = []

/-- The row that resets on an error packet can fire. -/
def Machine.AcceptsError (machine : Machine) (datagram : Datagram) : Prop :=
  machine.state = .waitingForAck ∧ 4 < datagram.bytes.length

section Answering

variable {config : Config} {machine next : Machine} {datagram : Datagram}

theorem Datagram.Reports.hasAckReceived (reports : datagram.Reports)
    (data : SessionData) (sender : Endpoint) :
    (data.received sender datagram).hasAckReceived = false := by
  rw [Bool.eq_false_iff, ne_eq, hasAckReceived_received, reports.opcode]
  simp [OpCode.error, OpCode.acknowledgment]

theorem Datagram.Reports.hasDataReceived (reports : datagram.Reports)
    (data : SessionData) (sender : Endpoint) :
    (data.received sender datagram).hasDataReceived = false := by
  rw [Bool.eq_false_iff, ne_eq, hasDataReceived_received, reports.opcode]
  simp [OpCode.error, OpCode.data]

theorem Datagram.Reports.firing (reports : datagram.Reports)
    (waits : machine.state = .waitingForAck ∨
      machine.state = .waitingForData) :
    Firing (machine.data.received machine.data.agreedRemoteEndpoint datagram)
      machine.state (some .packetReceived) .formProtocolErrorPacket
        .sendingError := by
  rcases waits with waits | waits
  · rw [waits]
    exact .notAck (by simp) (reports.hasAckReceived _ _)
  · rw [waits]
    exact .notData (by simp) (reports.hasDataReceived _ _)

/-- It is the only one where the resetting row cannot fire. -/
theorem Datagram.Reports.only (reports : datagram.Reports)
    (waits : machine.state = .waitingForAck ∨
      machine.state = .waitingForData)
    (refused : ¬ machine.AcceptsError datagram) {action : Action}
    {target : State}
    (firing : Firing
      (machine.data.received machine.data.agreedRemoteEndpoint datagram)
      machine.state (some .packetReceived) action target) :
    action = .formProtocolErrorPacket ∧ target = .sendingError := by
  have noAck := reports.hasAckReceived machine.data
    machine.data.agreedRemoteEndpoint
  have noData := reports.hasDataReceived machine.data
    machine.data.agreedRemoteEndpoint
  rcases waits with waits | waits
  · have short : ¬ 4 < datagram.bytes.length :=
      fun long => refused ⟨waits, long⟩
    have calm : (machine.data.received machine.data.agreedRemoteEndpoint
        datagram).hasErrReceived = false := by
      rw [Bool.eq_false_iff, ne_eq, hasErrReceived_received]
      exact fun error => short error.1
    rw [waits] at firing
    cases firing <;> simp_all
  · rw [waits] at firing
    cases firing <;> simp_all

theorem Datagram.Reports.exists_answer (reports : datagram.Reports)
    (wellFormed : machine.WellFormed config)
    (waits : machine.state = .waitingForAck ∨
      machine.state = .waitingForData) (idle : machine.tasks = []) :
    ∃ history next, Handles machine
        (.received machine.data.agreedRemoteEndpoint datagram) history next ∧
      sentPackets history =
        [(Packet.errorPacket ErrorCode.illegalTftpOperation.value,
          machine.data.agreedRemoteEndpoint)] := by
  have receives : machine.state.operation = some .receive := by
    rcases waits with waits | waits <;> rw [waits] <;> rfl
  obtain ⟨history, handles, outputs, _⟩ := wellFormed.exists_received
    (fun _ _ => True) receives idle {} trivial (reports.firing waits)
    (.waits (by simp [State.operation]))
  have formed : (formProtocolErrorPacket (machine.data.received
      machine.data.agreedRemoteEndpoint datagram)).outgoing =
        Packet.errorPacket ErrorCode.illegalTftpOperation.value :=
    outgoing_formErrorPacketWith _
  refine ⟨history, _, handles, ?_⟩
  rw [sentPackets, outputs, filterMap_after_exit rfl rfl (.inr rfl)]
  simp only [Action.run, State.entry, enterSending, formed]
  rfl

end Answering

/-- An error packet of the agreed endpoint is answered: the row for protocol
errors is enabled for it in either waiting state, and where the resetting row
is not, every handler sends an error packet. -/
theorem error_packet_answered (config : Config) (machine : Machine)
    (datagram : Datagram) (reachable : Reachable config machine)
    (waits : machine.state = .waitingForAck ∨
      machine.state = .waitingForData) (idle : machine.tasks = [])
    (reports : datagram.Reports) :
    ¬ EndsQuietly machine datagram ∧
    (∃ history next, Handles machine
        (.received machine.data.agreedRemoteEndpoint datagram) history next ∧
      sentPackets history =
        [(Packet.errorPacket ErrorCode.illegalTftpOperation.value,
          machine.data.agreedRemoteEndpoint)]) ∧
    (¬ machine.AcceptsError datagram → ∀ history next, Handles machine
        (.received machine.data.agreedRemoteEndpoint datagram) history next →
      sentPackets history =
        [(Packet.errorPacket ErrorCode.illegalTftpOperation.value,
          machine.data.agreedRemoteEndpoint)]) := by
  obtain ⟨past, run⟩ := reachable
  have answered := reports.exists_answer run.wellFormed waits idle
  refine ⟨?_, answered, ?_⟩
  · intro quiet
    obtain ⟨history, next, handles, sent⟩ := answered
    have silent := (quiet history next handles).2
    simp [silent] at sent
  · intro refused history next handles
    exact handles.refused run.wellFormed
      fun action target => reports.only waits refused

section Examples

/-- In `WaitingForAck` the error packet of the client is answered. -/
theorem download_error_answered :
    ∃ machine, Reachable .loopback machine ∧
      machine.state = .waitingForAck ∧
      ¬ EndsQuietly machine ⟨Packet.errorPacket 0, by decide⟩ := by
  obtain ⟨history, machine, _, run, passes⟩ :=
    exists_reaches_of_converse .loopback
      [(.accepted .client (requestOf .readRequest), {}), (.sent false, {})]
      (fun _ machine => decide (machine.state = .waitingForAck ∧
        machine.tasks = [])) (by decide +kernel)
  obtain ⟨waits, idle⟩ := of_decide_eq_true passes
  exact ⟨machine, ⟨history, run⟩, waits, (error_packet_answered .loopback
    machine _ ⟨history, run⟩ (.inl waits) idle ⟨by decide, by simp⟩).1⟩

/-- In `WaitingForData` the error packet of the client is answered by an error
packet as well. -/
theorem upload_error_answered :
    ∃ machine history next, Reachable .loopback machine ∧
      machine.state = .waitingForData ∧
      Handles machine (.received machine.data.agreedRemoteEndpoint
        ⟨Packet.errorPacket 0, by decide⟩) history next ∧
      sentPackets history =
        [(Packet.errorPacket ErrorCode.illegalTftpOperation.value,
          machine.data.agreedRemoteEndpoint)] := by
  obtain ⟨past, machine, _, run, passes⟩ :=
    exists_reaches_of_converse .loopback
      [(.accepted .client (requestOf .writeRequest), {}), (.sent false, {})]
      (fun _ machine => decide (machine.state = .waitingForData ∧
        machine.tasks = [])) (by decide +kernel)
  obtain ⟨waits, idle⟩ := of_decide_eq_true passes
  have reports : Datagram.Reports ⟨Packet.errorPacket 0, by decide⟩ :=
    ⟨by decide, by simp⟩
  obtain ⟨history, next, handles, sent⟩ :=
    reports.exists_answer run.wellFormed (.inr waits) idle
  exact ⟨machine, history, next, ⟨past, run⟩, waits, handles, sent⟩

end Examples

end MsmTftp
