import MsmTftp.SessionConversation
import MsmTftp.SessionHandler

/-!
# Repeated blocks

When an ACK is lost the client repeats its block.  The session answers a
repeated block by a silent change to `WaitingForAck`, from where it comes back
to `WaitingForData` only through `Reset`, and where the next block is answered
by an error packet.
-/

namespace MsmTftp

open CellBuffer TransitionSystem

/-- The client of an upload repeats the block that was saved last. -/
structure Repeats (machine : Machine) (datagram : Datagram) : Prop where
  waits : machine.state = .waitingForData
  idle : machine.tasks = []
  saved : 1 ≤ machine.data.lastSavedBlock
  long : 4 ≤ datagram.bytes.length
  opcode : Packet.opCode datagram.bytes = .data
  number : (Packet.word datagram.bytes).toNat = machine.data.lastSavedBlock

instance (machine : Machine) (datagram : Datagram) :
    Decidable (Repeats machine datagram) :=
  decidable_of_iff
    (machine.state = .waitingForData ∧ machine.tasks = [] ∧
      1 ≤ machine.data.lastSavedBlock ∧ 4 ≤ datagram.bytes.length ∧
        Packet.opCode datagram.bytes = .data ∧
          (Packet.word datagram.bytes).toNat = machine.data.lastSavedBlock)
    ⟨fun ⟨waits, idle, saved, long, opcode, number⟩ =>
      ⟨waits, idle, saved, long, opcode, number⟩,
      fun ⟨waits, idle, saved, long, opcode, number⟩ =>
        ⟨waits, idle, saved, long, opcode, number⟩⟩

/-- The states of a transfer that waits for no DATA packet any more. -/
def State.crossed : State → Bool
  | dataRead | sendingData | waitingForAck | sendingError => true
  | _ => false

section Crossing

variable {config : Config} {machine next : Machine} {datagram : Datagram}

theorem Firing.crossed {data : SessionData} {source target : State}
    {event : Option EventKind} {action : Action}
    (firing : Firing data source event action target)
    (crossed : source.crossed = true) (ongoing : action ≠ .reset) :
    target.crossed = true := by
  cases firing <;> simp_all [State.crossed]

theorem crossed_of_step {input : Input} {effects : List Effect}
    (crossed : machine.state.crossed = true)
    (stepped : machine.step input = some (next, effects))
    (ongoing : ¬ Step.Fires ⟨machine, input, effects, next⟩ .reset) :
    next.state.crossed = true := by
  cases stepCases stepped with
  | fire settled running firing =>
      exact firing.crossed crossed fun resets => ongoing ⟨_, _, rfl, resets⟩
  | _ => exact crossed

/-- Only `Reset` leaves the states after a crossing. -/
theorem crossed_of_run {later : List Step} {last : Machine}
    (crossed : machine.state.crossed = true)
    (run : session.Run machine later last)
    (ongoing : ∀ step ∈ later, ¬ Step.Fires step .reset) :
    last.state.crossed = true :=
  run.invariant_of (fun step => ¬ Step.Fires step .reset) ongoing
    (fun machine => machine.state.crossed = true) crossed
    fun _ crossed admitted ongoing => crossed_of_step crossed admitted ongoing

theorem Repeats.target {action : Action} {target : State}
    (repeats : Repeats machine datagram)
    (firing : Firing
      (machine.data.received machine.data.agreedRemoteEndpoint datagram)
      .waitingForData (some .packetReceived) action target) :
    action = .none ∧ target = .waitingForAck := by
  have arrived : (machine.data.received machine.data.agreedRemoteEndpoint
      datagram).hasDataReceived = true :=
    (hasDataReceived_received _ datagram).mpr
      ⟨repeats.long, repeats.opcode, rfl⟩
  have old : (machine.data.received machine.data.agreedRemoteEndpoint
      datagram).isOldData = true := by
    rw [isOldData_received _ datagram repeats.long, repeats.number]
    simp
  cases firing <;> simp_all

/-- The handler of a repeated block. -/
theorem Repeats.handled {history : List Step}
    (repeats : Repeats machine datagram)
    (wellFormed : machine.WellFormed config)
    (handles : Handles machine
      (.received machine.data.agreedRemoteEndpoint datagram) history next) :
    next.state = .waitingForAck ∧ sentPackets history = [] ∧
      next.data.agreedRemoteEndpoint =
        machine.data.agreedRemoteEndpoint := by
  have only : ∀ action target, Firing
      (machine.data.received machine.data.agreedRemoteEndpoint datagram)
        machine.state (some .packetReceived) action target →
          action = .none ∧ target = .waitingForAck := by
    intro action target firing
    rw [repeats.waits] at firing
    exact repeats.target firing
  obtain ⟨rfl, nothing, _⟩ := handles.ignored wellFormed only
  exact ⟨rfl, nothing, rfl⟩

theorem Repeats.exists_handles (repeats : Repeats machine datagram)
    (wellFormed : machine.WellFormed config) :
    ∃ history next, Handles machine
      (.received machine.data.agreedRemoteEndpoint datagram) history next := by
  obtain ⟨history, next, handles, _⟩ := wellFormed.exists_handles_received
    (by rw [repeats.waits]; rfl) repeats.idle
      machine.data.agreedRemoteEndpoint datagram {}
  exact ⟨history, next, handles⟩

theorem refused_block {history : List Step}
    (wellFormed : machine.WellFormed config)
    (waits : machine.state = .waitingForAck)
    (opcode : Packet.opCode datagram.bytes = .data)
    (handles : Handles machine
      (.received machine.data.agreedRemoteEndpoint datagram) history next) :
    sentPackets history =
      [(Packet.errorPacket ErrorCode.illegalTftpOperation.value,
        machine.data.agreedRemoteEndpoint)] := by
  have agreed : (machine.data.received machine.data.agreedRemoteEndpoint
      datagram).fromAgreedEndpoint = true := by
    simp
  have other : (machine.data.received machine.data.agreedRemoteEndpoint
      datagram).hasAckReceived = false := by
    rw [Bool.eq_false_iff, ne_eq, hasAckReceived_received, opcode]
    simp [OpCode.data, OpCode.acknowledgment]
  have calm : (machine.data.received machine.data.agreedRemoteEndpoint
      datagram).hasErrReceived = false := by
    rw [Bool.eq_false_iff, ne_eq, hasErrReceived_received, opcode]
    simp [OpCode.data, OpCode.error]
  apply handles.refused wellFormed
  intro action target firing
  rw [waits] at firing
  cases firing <;> simp_all

end Crossing

/-- A repeated block is never acknowledged again by its handler, and until the
next `Reset` the session never waits for DATA again and answers every further
block by an error packet. -/
theorem repeated_block_strands (config : Config) (machine : Machine)
    (datagram : Datagram) (reachable : Reachable config machine)
    (repeats : Repeats machine datagram) :
    (∃ history next, Handles machine
      (.received machine.data.agreedRemoteEndpoint datagram) history next) ∧
    ∀ history next, Handles machine
      (.received machine.data.agreedRemoteEndpoint datagram) history next →
      next.state = .waitingForAck ∧ sentPackets history = [] ∧
      (∀ later last, session.Run next later last →
        (∀ step ∈ later, ¬ Step.Fires step .reset) →
          last.state ≠ .waitingForData) ∧
      ∀ (block : Datagram) later last, Packet.opCode block.bytes = .data →
        Handles next (.received machine.data.agreedRemoteEndpoint block)
          later last →
        sentPackets later =
          [(Packet.errorPacket ErrorCode.illegalTftpOperation.value,
            machine.data.agreedRemoteEndpoint)] := by
  obtain ⟨past, run⟩ := reachable
  refine ⟨repeats.exists_handles run.wellFormed, ?_⟩
  intro history next handles
  obtain ⟨waits, sent, agreed⟩ := repeats.handled run.wellFormed handles
  refine ⟨waits, sent, ?_, ?_⟩
  · intro later last continues ongoing returns
    have crossed : last.state.crossed = true :=
      crossed_of_run (by rw [waits]; rfl) continues ongoing
    simp [returns, State.crossed] at crossed
  · intro block later last opcode answered
    rw [← agreed] at answered ⊢
    exact refused_block (handles.wellFormed run.wellFormed) waits opcode
      answered

section Examples

/-- A client of an upload that has sent its first block. -/
private theorem exists_repeats :
    ∃ machine, Reachable .loopback machine ∧
      Repeats machine ⟨Packet.dataPacket 1 [7], by decide⟩ := by
  obtain ⟨history, machine, _, run, passes⟩ :=
    exists_reaches_of_converse .loopback
      [(.accepted .client (requestOf .writeRequest), {}), (.sent false, {}),
        (.received .client ⟨Packet.dataPacket 1 [7], by decide⟩, {}),
        (.sent false, {})]
      (fun _ machine => decide
        (Repeats machine ⟨Packet.dataPacket 1 [7], by decide⟩))
      (by decide +kernel)
  exact ⟨machine, ⟨history, run⟩, of_decide_eq_true passes⟩

/-- A repeated first block strands an upload. -/
theorem first_block_strands :
    ∃ machine history next, Reachable .loopback machine ∧
      Handles machine (.received machine.data.agreedRemoteEndpoint
        ⟨Packet.dataPacket 1 [7], by decide⟩) history next ∧
      ∀ later last, session.Run next later last →
        (∀ step ∈ later, ¬ Step.Fires step .reset) →
          last.state ≠ .waitingForData := by
  obtain ⟨machine, reachable, repeats⟩ := exists_repeats
  obtain ⟨⟨history, next, handles⟩, strands⟩ :=
    repeated_block_strands .loopback machine _ reachable repeats
  obtain ⟨_, _, gone, _⟩ := strands history next handles
  exact ⟨machine, history, next, reachable, handles, gone⟩

/-- A repeated first block is not acknowledged, and the second block is
answered by an error packet. -/
theorem second_block_refused :
    ∃ machine history next, Reachable .loopback machine ∧
      Repeats machine ⟨Packet.dataPacket 1 [7], by decide⟩ ∧
      Handles machine (.received machine.data.agreedRemoteEndpoint
        ⟨Packet.dataPacket 1 [7], by decide⟩) history next ∧
      sentPackets history = [] ∧ next.state ≠ .waitingForData ∧
      ∀ later last, Handles next (.received machine.data.agreedRemoteEndpoint
        ⟨Packet.dataPacket 2 [8], by decide⟩) later last →
        sentPackets later =
          [(Packet.errorPacket 4, machine.data.agreedRemoteEndpoint)] := by
  obtain ⟨machine, ⟨past, run⟩, repeats⟩ := exists_repeats
  obtain ⟨history, next, handles⟩ := repeats.exists_handles run.wellFormed
  obtain ⟨waits, sent, agreed⟩ := repeats.handled run.wellFormed handles
  refine ⟨machine, history, next, ⟨past, run⟩, repeats, handles, sent,
    by simp [waits], ?_⟩
  intro later last answered
  rw [← agreed] at answered ⊢
  exact refused_block (handles.wellFormed run.wellFormed) waits (by simp)
    answered

end Examples

end MsmTftp
