import MsmTftp.SessionConversation
import MsmTftp.SessionHandler

/-!
# Packets of strangers

A packet from another endpoint than the agreed one is ignored in
`WaitingForAck` unless it looks like an error packet, which ends the transfer.
In `WaitingForData` every such packet leads to `WaitingForAck`.  Where all
foreign packets of a run are of the harmless kind, the run can be replayed
without them, with the same packets sent and the same bytes written.
-/

namespace MsmTftp

open CellBuffer TransitionSystem

/-- The data agree on everything but the packet received last. -/
def SessionData.SameTransfer (data other : SessionData) : Prop :=
  other =
    { data with
      receiveBuffer := other.receiveBuffer
      receivedPacket := other.receivedPacket
      lastRemoteEndpoint := other.lastRemoteEndpoint }

/-- Whatever the handler of a packet does, the session stays in its state,
sends nothing, leaves the file alone and changes nothing of the transfer. -/
def Ignores (machine : Machine) (sender : Endpoint) (datagram : Datagram) :
    Prop :=
  ∀ history next, Handles machine (.received sender datagram) history next →
    next.state = machine.state ∧ machine.data.SameTransfer next.data ∧
      (history.flatMap Transition.outputs).filterMap Effect.packet = [] ∧
        ∀ effect ∈ history.flatMap Transition.outputs,
          effect.touchesFile = false

/-- Not the kind of packet that ends a transfer whoever sends it. -/
def Datagram.IsError (datagram : Datagram) : Prop :=
  4 < datagram.bytes.length ∧ Packet.opCode datagram.bytes = .error

instance (datagram : Datagram) : Decidable datagram.IsError :=
  inferInstanceAs (Decidable (_ ∧ _))

section OnePacket

variable {config : Config} {machine : Machine} {sender : Endpoint}
  {datagram : Datagram}

theorem Firing.of_stranger {data : SessionData} {action : Action}
    {target : State}
    (firing : Firing data .waitingForAck (some .packetReceived) action target)
    (stranger : data.fromAgreedEndpoint = false)
    (harmless : data.hasErrReceived = false) :
    action = .none ∧ target = .waitingForAck := by
  cases firing <;> simp_all

theorem ignores_of_harmless (wellFormed : machine.WellFormed config)
    (waits : machine.state = .waitingForAck)
    (stranger : sender ≠ machine.data.agreedRemoteEndpoint)
    (harmless : ¬ datagram.IsError) :
    Ignores machine sender datagram := by
  intro history next handles
  have foreign : (machine.data.received sender datagram).fromAgreedEndpoint =
      false := by
    simpa using stranger
  have calm : (machine.data.received sender datagram).hasErrReceived =
      false := by
    rw [Bool.eq_false_iff, ne_eq, hasErrReceived_received]
    exact harmless
  have only (action : Action) (target : State)
      (firing : Firing (machine.data.received sender datagram) machine.state
        (some .packetReceived) action target) :
      action = .none ∧ target = .waitingForAck := by
    rw [waits] at firing
    exact firing.of_stranger foreign calm
  obtain ⟨environment, exitEffects, exits, rfl, outputs⟩ :=
    handles.received_of_only wellFormed only (by simp [State.operation])
  refine ⟨waits.symm, rfl, (handles.ignored wellFormed only).2.1, ?_⟩
  rw [outputs]
  rcases exits with rfl | rfl <;>
    simp [Action.run, State.entry, enterReceive, Effect.touchesFile]

/-- In `WaitingForData` a packet of a stranger leads to `WaitingForAck`. -/
theorem exists_crossing (sender : Endpoint) (datagram : Datagram)
    (wellFormed : machine.WellFormed config)
    (waits : machine.state = .waitingForData) (idle : machine.tasks = [])
    (stranger : sender ≠ machine.data.agreedRemoteEndpoint) :
    ∃ history next,
      Handles machine (.received sender datagram) history next ∧
        next.state = .waitingForAck := by
  have foreign : (machine.data.received sender datagram).fromAgreedEndpoint =
      false := by
    simpa using stranger
  obtain ⟨history, handles, _⟩ := wellFormed.exists_received (fun _ _ => True)
    (by rw [waits]; rfl) idle {} trivial
    (by rw [waits]; exact .oldData (.inl foreign))
    (.waits (by simp [State.operation]))
  exact ⟨history, _, handles, rfl⟩

/-- In `WaitingForAck` an error packet of a stranger ends the transfer. -/
theorem exists_abort (sender : Endpoint) (datagram : Datagram)
    (wellFormed : machine.WellFormed config)
    (waits : machine.state = .waitingForAck) (idle : machine.tasks = [])
    (error : datagram.IsError) :
    ∃ history next,
      Handles machine (.received sender datagram) history next ∧
        next.state = .accepting := by
  have ends : (machine.data.received sender datagram).hasErrReceived =
      true :=
    (hasErrReceived_received sender datagram).mpr error
  obtain ⟨history, handles, _⟩ := wellFormed.exists_received (fun _ _ => True)
    (by rw [waits]; rfl) idle {} trivial
    (by rw [waits]; exact .finish (.inl ends))
    (.passes {} trivial .restart (.waits (by simp [State.operation])))
  exact ⟨history, _, handles, rfl⟩

theorem ignores_iff (wellFormed : machine.WellFormed config)
    (waits : machine.state = .waitingForAck ∨
      machine.state = .waitingForData) (idle : machine.tasks = [])
    (stranger : sender ≠ machine.data.agreedRemoteEndpoint) :
    Ignores machine sender datagram ↔
      machine.state = .waitingForAck ∧ ¬ datagram.IsError := by
  constructor
  · intro ignores
    rcases waits with waits | waits
    · refine ⟨waits, fun error => ?_⟩
      obtain ⟨history, next, handles, ends⟩ :=
        exists_abort sender datagram wellFormed waits idle error
      have stays := (ignores history next handles).1
      simp [ends, waits] at stays
    · obtain ⟨history, next, handles, crosses⟩ :=
        exists_crossing sender datagram wellFormed waits idle stranger
      have stays := (ignores history next handles).1
      simp [crosses, waits] at stays
  · rintro ⟨waits, harmless⟩
    exact ignores_of_harmless wellFormed waits stranger harmless

end OnePacket

/-- The data agree on the packet received last. -/
def SessionData.SamePacket (data other : SessionData) : Prop :=
  other.incoming = data.incoming ∧
    other.lastRemoteEndpoint = data.lastRemoteEndpoint

section Twins

variable {data other : SessionData} {source target : State}
  {event : Option EventKind} {action : Action}

theorem SessionData.SamePacket.receivedPacket
    (packet : data.SamePacket other) :
    other.receivedPacket = data.receivedPacket := by
  have lengths := congrArg List.length packet.1
  simpa using lengths

theorem SessionData.SamePacket.receivedOpCd (packet : data.SamePacket other)
    (long : 2 ≤ data.receivedPacket) :
    other.receivedOpCd = data.receivedOpCd := by
  have size := packet.receivedPacket
  exact (Packet.opCd_eq_opCode packet.1 (by omega)).trans
    (Packet.opCd_eq_opCode rfl long).symm

theorem SessionData.SamePacket.receivedWord (packet : data.SamePacket other)
    (long : 4 ≤ data.receivedPacket) :
    other.receivedWord = data.receivedWord := by
  have size := packet.receivedPacket
  exact (Packet.word_eq_word packet.1 (by omega)).trans
    (Packet.word_eq_word rfl long).symm

theorem same_hasErrReceived (packet : data.SamePacket other) :
    other.hasErrReceived = data.hasErrReceived := by
  rw [SessionData.hasErrReceived, SessionData.hasErrReceived,
    packet.receivedPacket]
  by_cases long : HeaderView.size < data.receivedPacket
  · rw [packet.receivedOpCd (Nat.le_trans (by decide) (Nat.le_of_lt long))]
  · simp [long]

section SameGuards

variable (same : data.SameTransfer other) (packet : data.SamePacket other)

include same packet

theorem same_fromAgreedEndpoint :
    other.fromAgreedEndpoint = data.fromAgreedEndpoint := by
  rw [SessionData.fromAgreedEndpoint, packet.2, same]
  rfl

theorem same_hasDataReceived :
    other.hasDataReceived = data.hasDataReceived := by
  have agreed := same_fromAgreedEndpoint same packet
  rw [SessionData.fromAgreedEndpoint, SessionData.fromAgreedEndpoint]
    at agreed
  rw [SessionData.hasDataReceived, SessionData.hasDataReceived,
    packet.receivedPacket, agreed]
  by_cases long : HeaderView.size ≤ data.receivedPacket
  · rw [packet.receivedOpCd (Nat.le_trans (by decide) long)]
  · simp [long]

theorem same_hasAckReceived :
    other.hasAckReceived = data.hasAckReceived := by
  have sent : other.lastSentBlock = data.lastSentBlock := by
    rw [same]
  rw [SessionData.hasAckReceived, SessionData.hasAckReceived,
    packet.receivedPacket, sent]
  by_cases short : data.receivedPacket = HeaderView.size
  · rw [packet.receivedOpCd (by rw [short]; decide),
      packet.receivedWord (by rw [short]; decide)]
  · simp [beq_eq_false_iff_ne.mpr short]

theorem same_isOldData (received : data.hasDataReceived = true) :
    other.isOldData = data.isOldData := by
  simp only [SessionData.hasDataReceived, Bool.and_eq_true,
    decide_eq_true_eq] at received
  have saved : other.lastSavedBlock = data.lastSavedBlock := by
    rw [same]
  rw [SessionData.isOldData, SessionData.isOldData,
    packet.receivedWord received.1.1, saved]

theorem same_isOldAck (received : data.hasAckReceived = true) :
    other.isOldAck = data.isOldAck := by
  simp only [SessionData.hasAckReceived, Bool.and_eq_true, beq_iff_eq]
    at received
  have sent : other.lastSentBlock = data.lastSentBlock := by
    rw [same]
  rw [SessionData.isOldAck, SessionData.isOldAck,
    packet.receivedWord (by rw [received.1.1]; decide), sent]

end SameGuards

/-- The same rows fire for the same packet in the same transfer. -/
theorem Firing.transport
    (firing : Firing data source event action target)
    (same : data.SameTransfer other)
    (packet : event = some .packetReceived → data.SamePacket other)
    (serving : source ≠ .accepting) :
    Firing other source event action target := by
  have error : other.hasError = data.hasError := by
    rw [same]
    rfl
  have options : other.hasOptions = data.hasOptions := by
    rw [same]
    rfl
  have retry : other.canRetry = data.canRetry := by
    rw [same]
    rfl
  have unsent : other.hasMoreToSend = data.hasMoreToSend := by
    rw [same]
    rfl
  cases firing with
  | errorSent => exact .errorSent
  | restart => exact .restart
  | acceptingFailed => exact absurd rfl serving
  | acceptWrite => exact absurd rfl serving
  | acceptRead => exact absurd rfl serving
  | grantWrite noError => exact .grantWrite (error.trans noError)
  | refuseWrite failed => exact .refuseWrite (error.trans failed)
  | ackSent => exact .ackSent
  | resendAck again => exact .resendAck (retry.trans again)
  | giveUpWrite exhausted => exact .giveUpWrite (retry.trans exhausted)
  | dataSaved noError => exact .dataSaved (error.trans noError)
  | saveFailed failed => exact .saveFailed (error.trans failed)
  | firstBlock noError plain =>
      exact .firstBlock (error.trans noError) (options.trans plain)
  | announceOptions uses => exact .announceOptions (options.trans uses)
  | refuseRead failed => exact .refuseRead (error.trans failed)
  | blockRead noError => exact .blockRead (error.trans noError)
  | readFailed failed => exact .readFailed (error.trans failed)
  | dataSent => exact .dataSent
  | resendData again => exact .resendData (retry.trans again)
  | giveUpRead exhausted => exact .giveUpRead (retry.trans exhausted)
  | notData agreed different =>
      have packet := packet rfl
      exact .notData ((same_fromAgreedEndpoint same packet).trans agreed)
        ((same_hasDataReceived same packet).trans different)
  | oldData ignored =>
      have packet := packet rfl
      refine .oldData (ignored.imp ?_ ?_)
      · exact fun foreign => (same_fromAgreedEndpoint same packet).trans foreign
      · rintro ⟨received, old⟩
        exact ⟨(same_hasDataReceived same packet).trans received,
          (same_isOldData same packet received).trans old⟩
  | newData agreed received new =>
      have packet := packet rfl
      exact .newData ((same_fromAgreedEndpoint same packet).trans agreed)
        ((same_hasDataReceived same packet).trans received)
        ((same_isOldData same packet received).trans new)
  | notAck agreed different =>
      have packet := packet rfl
      exact .notAck ((same_fromAgreedEndpoint same packet).trans agreed)
        ((same_hasAckReceived same packet).trans different)
  | oldAck ignored =>
      have packet := packet rfl
      refine .oldAck (ignored.imp ?_ ?_)
      · exact fun foreign => (same_fromAgreedEndpoint same packet).trans foreign
      · rintro ⟨received, old⟩
        exact ⟨(same_hasAckReceived same packet).trans received,
          (same_isOldAck same packet received).trans old⟩
  | nextBlock agreed received current more =>
      have packet := packet rfl
      exact .nextBlock ((same_fromAgreedEndpoint same packet).trans agreed)
        ((same_hasAckReceived same packet).trans received)
        ((same_isOldAck same packet received).trans current)
        (unsent.trans more)
  | finish final =>
      have packet := packet rfl
      refine .finish (final.imp ?_ ?_)
      · exact fun failed => (same_hasErrReceived packet).trans failed
      · rintro ⟨agreed, received, current, last⟩
        exact ⟨(same_fromAgreedEndpoint same packet).trans agreed,
          (same_hasAckReceived same packet).trans received,
          (same_isOldAck same packet received).trans current,
          unsent.trans last⟩

/-- Actions on the same transfer have the same effects and leave the same
transfer; `Reset` leaves the same data. -/
theorem run_same {environment : Environment} {event : Option Event}
    (same : data.SameTransfer other)
    (reads : action ≠ .initServeReadRequest)
    (writes : action ≠ .initServeWriteRequest)
    (saves : action = .writeData →
      data.SamePacket other ∧ 4 ≤ data.receivedPacket) :
    (action.run environment event other).2 =
        (action.run environment event data).2 ∧
      (action.run environment event data).1.SameTransfer
        (action.run environment event other).1 ∧
      (action = .reset → (action.run environment event other).1 =
        (action.run environment event data).1) := by
  cases action with
  | initServeReadRequest => exact absurd rfl reads
  | initServeWriteRequest => exact absurd rfl writes
  | writeData =>
      obtain ⟨packet, long⟩ := saves rfl
      have stream : other.fileStream = data.fileStream := by
        rw [same]
      simp only [Action.run, writeData, stream, packet.1,
        packet.receivedPacket, packet.receivedWord long]
      rw [same]
      split <;> exact ⟨rfl, rfl, by simp⟩
  | formDataPacket =>
      rw [same]
      simp only [Action.run, formDataPacket]
      split <;> exact ⟨trivial, rfl, by simp⟩
  | reset =>
      rw [same]
      exact ⟨rfl, rfl, fun _ => rfl⟩
  | _ =>
      rw [same]
      exact ⟨rfl, rfl, by simp⟩

theorem entry_same (state : State) (same : data.SameTransfer other) :
    (state.entry other).2 = (state.entry data).2 := by
  rw [same]
  cases state <;> rfl

theorem SessionData.SameTransfer.entering (same : data.SameTransfer other)
    (state : State) :
    (Machine.entering state data).data.SameTransfer
      (Machine.entering state other).data := by
  rw [SessionData.SameTransfer] at same ⊢
  simp only [Machine.entering, entry_data]
  rw [same]
  split <;> rfl

theorem exit_same (state : State) (same : data.SameTransfer other) :
    state.exit other = state.exit data := by
  rw [same]
  cases state <;> rfl

end Twins

/-- What the outside sees of a session: the packets sent and the bytes
written. -/
def Effect.visible : Effect → Option Effect
  | sendTo packet receiver => some (sendTo packet receiver)
  | writeFile bytes => some (writeFile bytes)
  | _ => none

/-- The step belongs to the handler of a stranger's packet. -/
def Step.foreign (step : Step) : Bool :=
  match step.input with
  | .complete (.received sender _) =>
      decide (sender ≠ step.before.data.agreedRemoteEndpoint)
  | .fire _ _ =>
      decide (step.before.tasks = [.process .packetReceived]) &&
        !step.before.data.fromAgreedEndpoint
  | _ => false

/-- Packets of strangers arrive in `WaitingForAck` only and are no error
packets. -/
def Step.Harmless (step : Step) : Prop :=
  match step.input with
  | .complete (.received sender datagram) =>
      sender ≠ step.before.data.agreedRemoteEndpoint →
        step.before.state = .waitingForAck ∧ ¬ datagram.IsError
  | _ => True

instance (step : Step) : Decidable step.Harmless :=
  match step with
  | ⟨_, .complete (.received _ _), _, _⟩ => inferInstanceAs (Decidable (_ → _))
  | ⟨_, .complete (.accepted _ _), _, _⟩ => inferInstanceAs (Decidable True)
  | ⟨_, .complete .acceptFailed, _, _⟩ => inferInstanceAs (Decidable True)
  | ⟨_, .complete (.sent _), _, _⟩ => inferInstanceAs (Decidable True)
  | ⟨_, .complete .receiveFailed, _, _⟩ => inferInstanceAs (Decidable True)
  | ⟨_, .parse, _, _⟩ => inferInstanceAs (Decidable True)
  | ⟨_, .fire _ _, _, _⟩ => inferInstanceAs (Decidable True)
  | ⟨_, .reject, _, _⟩ => inferInstanceAs (Decidable True)

/-- Two machines in the same transfer, between packets of strangers. -/
structure Twin (machine twin : Machine) : Prop where
  state : twin.state = machine.state
  tasks : twin.tasks = machine.tasks
  outstanding : twin.outstanding = machine.outstanding
  transfer : machine.data.SameTransfer twin.data
  packet : machine.tasks = [.process .packetReceived] →
    machine.data.fromAgreedEndpoint = true ∧
      machine.data.SamePacket twin.data
  rested : machine.state = .accepting ∨ machine.state = .resetted →
    twin.data = machine.data

/-- A machine with a stranger's packet, whose twin still waits. -/
structure Astray (machine twin : Machine) : Prop where
  state : machine.state = .waitingForAck
  tasks : machine.tasks = [.process .packetReceived]
  foreign : machine.data.fromAgreedEndpoint = false
  harmless : machine.data.hasErrReceived = false
  waits : twin.state = .waitingForAck
  idle : twin.tasks = []
  armed : twin.outstanding = [.receive]
  transfer : machine.data.SameTransfer twin.data

/-- The relation between a run and its replay. -/
structure Replays (config : Config) (machine twin : Machine) : Prop where
  wellFormed : machine.WellFormed config
  related : Twin machine twin ∨ Astray machine twin

section Replay

variable {config : Config} {machine twin next : Machine} {input : Input}
  {effects : List Effect}

theorem Twin.refl (machine : Machine)
    (idle : machine.tasks ≠ [.process .packetReceived]) :
    Twin machine machine :=
  ⟨rfl, rfl, rfl, rfl, fun received => absurd received idle, fun _ => rfl⟩

theorem Twin.eq_of_accepting (same : Twin machine twin)
    (accepts : machine.state = .accepting) : twin = machine := by
  obtain ⟨state, tasks, outstanding, _, _, rested⟩ := same
  cases machine
  cases twin
  simp_all

theorem idle_of_accepting (formed : next.WellFormed config)
    (stepped : machine.step input = some (next, effects))
    (accepts : machine.state = .accepting) :
    next.tasks ≠ [.process .packetReceived] := by
  intro received
  have receives : next.state.operation = some .receive := by
    have shape := formed.shape
    rw [received] at shape
    generalize next.state = state at shape ⊢
    generalize next.outstanding = outstanding at shape
    cases shape
    assumption
  cases stepCases stepped with
  | fire settled running firing =>
      obtain ⟨_, uses⟩ := firing.action_of_receiving receives
      simp [accepts, State.operation] at uses
  | _ => simp [accepts, State.operation] at receives

theorem complete_same {completion : Completion}
    (states : twin.state = machine.state) (tasks : twin.tasks = machine.tasks)
    (outstanding : twin.outstanding = machine.outstanding)
    (serving : machine.state ≠ .accepting)
    (wellFormed : machine.WellFormed config) (idle : machine.tasks = [])
    (started : completion.operation ∈ machine.outstanding) :
    completion.operation ≠ .listenerReceive ∧
      machine.state.operation = some completion.operation ∧
        twin.step (.complete completion) =
          some ({ twin with
            data := (completion.start twin.data).1
            tasks := (completion.start twin.data).2.1
            outstanding := twin.outstanding.erase completion.operation },
            (completion.start twin.data).2.2) := by
  obtain ⟨drives, _⟩ := wellFormed.drives idle started
  have returned : twin.returned = true := by
    rw [returned_iff, states, tasks, drives]
    exact ⟨by simp, idle⟩
  refine ⟨?_, drives, ?_⟩
  · intro listens
    rw [listens] at drives
    exact serving (State.eq_accepting drives)
  · simp [Machine.step, returned, outstanding, started]

theorem Twin.complete (same : Twin machine twin) {completion : Completion}
    (serving : machine.state ≠ .accepting)
    (wellFormed : machine.WellFormed config)
    (stepped : machine.step (.complete completion) = some (next, effects))
    (known : Step.foreign
      ⟨machine, .complete completion, effects, next⟩ = false) :
    ∃ twinNext, twin.step (.complete completion) = some (twinNext, effects) ∧
      Twin next twinNext := by
  have transfer := same.transfer
  rw [SessionData.SameTransfer] at transfer
  cases stepCases stepped with
  | complete settled idle started =>
      obtain ⟨uses, drives, begins⟩ := complete_same same.state same.tasks
        same.outstanding serving wellFormed idle started
      have awake : ¬ (machine.state = .accepting ∨
          machine.state = .resetted) := by
        rintro (accepts | rests)
        · exact serving accepts
        · simp [rests, State.operation] at drives
      cases completion with
      | accepted sender datagram => exact absurd rfl uses
      | acceptFailed => exact absurd rfl uses
      | sent failed =>
          refine ⟨_, begins, same.state, rfl, ?_, same.transfer, ?_,
            same.rested⟩
          · simp [same.outstanding]
          · simp [Completion.start]
      | received sender datagram =>
          refine ⟨_, begins, same.state, rfl, ?_, ?_, ?_, ?_⟩
          · simp [same.outstanding]
          · rw [transfer]
            rfl
          · refine fun _ => ⟨?_, ?_, rfl⟩
            · simp only [Step.foreign, decide_eq_false_iff_not, not_not]
                at known
              exact beq_iff_eq.mpr known
            · exact (incoming_received sender datagram).trans
                (incoming_received sender datagram).symm
          · exact fun rests => absurd rests awake
      | receiveFailed =>
          refine ⟨_, begins, same.state, rfl, ?_, ?_, ?_, ?_⟩
          · simp [same.outstanding]
          · rw [transfer]
            rfl
          · simp [Completion.start]
          · exact fun rests => absurd rests awake

theorem fire_same {row : Row} {environment : Environment}
    (states : twin.state = machine.state) (tasks : twin.tasks = machine.tasks)
    (outstanding : twin.outstanding = machine.outstanding)
    (same : machine.data.SameTransfer twin.data)
    (packet : machine.tasks = [.process .packetReceived] →
      machine.data.SamePacket twin.data)
    (serving : machine.state ≠ .accepting)
    (wellFormed : machine.WellFormed config)
    (stepped : machine.step (.fire row environment) = some (next, effects)) :
    ∃ event exitEffects,
      FireCases machine row environment event exitEffects effects next ∧
      twin.step (.fire row environment) =
        some (Machine.entering row.target
          (row.action.run environment event twin.data).1, effects) ∧
      (row.action.run environment event machine.data).1.SameTransfer
        (row.action.run environment event twin.data).1 ∧
      (row.action = .reset →
        (row.action.run environment event twin.data).1 =
          (row.action.run environment event machine.data).1) := by
  obtain ⟨event, exitEffects, cases⟩ := wellFormed.fireCases stepped
  have packet : event.map Event.kind = some .packetReceived →
      machine.data.SamePacket twin.data := by
    intro received
    have happens := Event.eq_packetReceived received
    exact packet (by rw [cases.running, happens]; rfl)
  have fires := cases.firing.transport same packet serving
  have enabled : row ∈ enabledRows twin.state (event.map Event.kind)
      twin.data := by
    obtain ⟨matching, found, actions, targets⟩ := fires.exists_row
    have identical := enabledRows_injective found cases.enabled actions targets
    rw [states, ← identical]
    exact found
  obtain ⟨reads, writes⟩ := cases.firing.ne_initServe serving
  have saves : row.action = .writeData →
      machine.data.SamePacket twin.data ∧
        4 ≤ machine.data.receivedPacket := by
    intro saving
    have firing := cases.firing
    rw [saving] at firing
    obtain ⟨_, received, _, arrived, _⟩ := firing.of_writeData
    simp only [SessionData.hasDataReceived, Bool.and_eq_true,
      decide_eq_true_eq] at arrived
    exact ⟨packet received, arrived.1.1⟩
  obtain ⟨actionSame, transferSame, resetSame⟩ :
      (row.action.run environment event twin.data).2 =
          (row.action.run environment event machine.data).2 ∧ _ ∧ _ :=
    run_same same reads writes saves
  have exits : twin.state.exit twin.data = some exitEffects := by
    rw [states, exit_same _ same, cases.exits]
  refine ⟨event, exitEffects, cases, ?_, transferSame, resetSame⟩
  rw [step_of_enabled environment
    (fun happens => by
      rw [settled_iff, states]
      exact settled_iff.mp (cases.settled happens))
    (tasks.trans cases.running) (outstanding.trans cases.idle) enabled exits,
    cases.effects_eq, actionSame, entry_same _ transferSame]

theorem Twin.fire (same : Twin machine twin) {row : Row}
    {environment : Environment} (serving : machine.state ≠ .accepting)
    (wellFormed : machine.WellFormed config)
    (stepped : machine.step (.fire row environment) = some (next, effects)) :
    ∃ twinNext, twin.step (.fire row environment) = some (twinNext, effects) ∧
      Twin next twinNext := by
  obtain ⟨event, exitEffects, cases, fired, transferSame, resetSame⟩ :=
    fire_same same.state same.tasks same.outstanding same.transfer
      (fun received => (same.packet received).2) serving wellFormed stepped
  refine ⟨_, fired, ?_⟩
  rw [cases.next_eq]
  refine ⟨rfl, rfl, ?_, transferSame.entering row.target, by simp, ?_⟩
  · simp only [Machine.entering]
    rw [entry_same _ transferSame]
  · have sameData : row.target = .accepting ∨ row.target = .resetted →
        (row.action.run environment event twin.data).1 =
          (row.action.run environment event machine.data).1 := by
      have firing := cases.firing
      rintro (accepts | rests)
      · rw [accepts] at firing
        obtain ⟨source, action⟩ := firing.source_of_accepting
        rw [action]
        exact same.rested (.inr source)
      · rw [rests] at firing
        exact resetSame firing.action_of_resetted
    intro rests
    rw [Machine.entering, Machine.entering, sameData rests]

/-- A packet of a stranger leads a twin astray. -/
theorem Twin.astray (same : Twin machine twin)
    (wellFormed : machine.WellFormed config) {completion : Completion}
    (stepped : machine.step (.complete completion) = some (next, effects))
    (foreign : Step.foreign
      ⟨machine, .complete completion, effects, next⟩ = true)
    (harmless : Step.Harmless
      ⟨machine, .complete completion, effects, next⟩) :
    Astray next twin ∧ effects.filterMap Effect.visible = [] := by
  cases completion with
  | received sender datagram =>
      simp only [Step.foreign, decide_eq_true_eq] at foreign
      obtain ⟨waits, calm⟩ := harmless foreign
      cases stepCases stepped with
      | complete settled idle started =>
          obtain ⟨_, only⟩ := wellFormed.drives idle started
          refine ⟨⟨waits, rfl, ?_, ?_, same.state.trans waits,
            same.tasks.trans idle, same.outstanding.trans only, ?_⟩, rfl⟩
          · exact beq_eq_false_iff_ne.mpr foreign
          · have calm : ¬ (machine.data.received sender
                datagram).hasErrReceived = true :=
              fun error => calm
                ((hasErrReceived_received sender datagram).mp error)
            exact Bool.eq_false_iff.mpr calm
          · have transfer := same.transfer
            rw [SessionData.SameTransfer] at transfer ⊢
            rw [transfer]
            rfl
  | _ => simp [Step.foreign] at foreign

/-- The row for the packet of a stranger leads back to the twin. -/
theorem Astray.fire (astray : Astray machine twin) {row : Row}
    {environment : Environment} (wellFormed : machine.WellFormed config)
    (stepped : machine.step (.fire row environment) = some (next, effects)) :
    Twin next twin ∧ effects.filterMap Effect.visible = [] := by
  obtain ⟨event, exitEffects, cases⟩ := wellFormed.fireCases stepped
  have happens := cases.event_eq astray.tasks
  have firing := cases.firing
  rw [happens, astray.state] at firing
  obtain ⟨action, target⟩ :=
    firing.of_stranger astray.foreign astray.harmless
  have effects_eq := cases.effects_eq
  have next_eq := cases.next_eq
  rw [action, target] at effects_eq next_eq
  subst effects_eq next_eq
  refine ⟨⟨astray.waits, astray.idle, astray.armed, astray.transfer, by simp,
    by simp⟩, ?_⟩
  rcases exit_effects cases.exits with rfl | rfl <;> rfl

/-- The replay takes every step that belongs to no stranger. -/
theorem Replays.keeps (replays : Replays config machine twin)
    (stepped : machine.step input = some (next, effects))
    (known : Step.foreign ⟨machine, input, effects, next⟩ = false) :
    ∃ twinNext, twin.step input = some (twinNext, effects) ∧
      Replays config next twinNext := by
  obtain ⟨wellFormed, same | astray⟩ := replays
  · have formed := wellFormed.step stepped
    by_cases accepts : machine.state = .accepting
    · obtain rfl := same.eq_of_accepting accepts
      exact ⟨next, stepped, formed,
        .inl (Twin.refl next (idle_of_accepting formed stepped accepts))⟩
    · cases input with
      | complete completion =>
          obtain ⟨twinNext, taken, related⟩ :=
            same.complete accepts wellFormed stepped known
          exact ⟨twinNext, taken, formed, .inl related⟩
      | fire row environment =>
          obtain ⟨twinNext, taken, related⟩ :=
            same.fire accepts wellFormed stepped
          exact ⟨twinNext, taken, formed, .inl related⟩
      | parse => exact absurd (wellFormed.accepting_of_parse stepped) accepts
      | reject => exact absurd (wellFormed.accepting_of_reject stepped) accepts
  · cases input with
    | complete completion =>
        cases stepCases stepped with
        | complete settled idle started => simp [astray.tasks] at idle
    | fire row environment =>
        simp [Step.foreign, astray.tasks, astray.foreign] at known
    | parse =>
        have accepts := wellFormed.accepting_of_parse stepped
        simp [astray.state] at accepts
    | reject =>
        have accepts := wellFormed.accepting_of_reject stepped
        simp [astray.state] at accepts

/-- The replay leaves out the steps for packets of strangers. -/
theorem Replays.drops (replays : Replays config machine twin)
    (stepped : machine.step input = some (next, effects))
    (foreign : Step.foreign ⟨machine, input, effects, next⟩ = true)
    (harmless : Step.Harmless ⟨machine, input, effects, next⟩) :
    Replays config next twin ∧ effects.filterMap Effect.visible = [] := by
  obtain ⟨wellFormed, same | astray⟩ := replays
  · have formed := wellFormed.step stepped
    cases input with
    | complete completion =>
        obtain ⟨astray, silent⟩ :=
          same.astray wellFormed stepped foreign harmless
        exact ⟨⟨formed, .inr astray⟩, silent⟩
    | fire row environment =>
        simp only [Step.foreign, Bool.and_eq_true, decide_eq_true_eq,
          Bool.not_eq_true'] at foreign
        simp [(same.packet foreign.1).1] at foreign
    | parse => simp [Step.foreign] at foreign
    | reject => simp [Step.foreign] at foreign
  · have formed := wellFormed.step stepped
    cases input with
    | complete completion =>
        cases stepCases stepped with
        | complete settled idle started => simp [astray.tasks] at idle
    | fire row environment =>
        obtain ⟨same, silent⟩ := astray.fire wellFormed stepped
        exact ⟨⟨formed, .inl same⟩, silent⟩
    | parse => simp [Step.foreign] at foreign
    | reject => simp [Step.foreign] at foreign

end Replay

/-- Packets of strangers are ignored exactly in `WaitingForAck` and when they
are no error packets, and a run whose packets of strangers are all of this
kind sends the same packets and writes the same bytes without them. -/
theorem strangers_ignored_iff (config : Config) :
    (∀ machine sender datagram, Reachable config machine →
      machine.tasks = [] →
      machine.state = .waitingForAck ∨ machine.state = .waitingForData →
      sender ≠ machine.data.agreedRemoteEndpoint →
        (Ignores machine sender datagram ↔
          machine.state = .waitingForAck ∧ ¬ datagram.IsError)) ∧
    (∀ history machine, Reaches config history machine →
      (∀ step ∈ history, Step.Harmless step) →
        ∃ replay last, Reaches config replay last ∧
          replay.map Transition.input =
            (history.filter fun step => !Step.foreign step).map
              Transition.input ∧
          (replay.flatMap Transition.outputs).filterMap Effect.visible =
            (history.flatMap Transition.outputs).filterMap
              Effect.visible) := by
  constructor
  · rintro machine sender datagram ⟨history, run⟩ idle waits stranger
    exact ignores_iff run.wellFormed waits idle stranger
  · intro history machine run harmless
    obtain ⟨replay, last, replayed, _, inputs, observed⟩ :=
      run.delete Step.Harmless harmless Step.foreign Effect.visible
        (Replays config)
        ⟨Machine.started_wellFormed config,
          .inl (Twin.refl _ (by simp [Machine.started]))⟩
        (by
          intro step twin replays admitted _ known
          obtain ⟨next, taken, related⟩ := replays.keeps admitted known
          exact ⟨_, next, taken, related, rfl⟩)
        (by
          intro step twin replays admitted harmless foreign
          exact replays.drops admitted foreign harmless)
    exact ⟨replay, last, replayed, inputs, observed⟩

section Examples

private def Endpoint.stranger : Endpoint where
  address := 2130706433
  port := 3000

/-- The start of a transfer with the client, up to the wait for its first
packet. -/
private def openTransfer (opcode : OpCode) : Completion × Environment :=
  (.accepted .client (requestOf opcode), {})

private theorem exists_waiting (opcode : OpCode) (state : State)
    (checked : ((Machine.started .loopback).converse
        [openTransfer opcode, (.sent false, {})]).map
      (fun result => decide (result.2.state = state) &&
        decide (result.2.tasks = []) &&
          decide (result.2.data.agreedRemoteEndpoint = .client)) =
            some true) :
    ∃ machine, Reachable .loopback machine ∧ machine.state = state ∧
      machine.tasks = [] ∧ machine.data.agreedRemoteEndpoint = .client := by
  obtain ⟨history, machine, _, run, passes⟩ :=
    exists_reaches_of_converse .loopback
      [openTransfer opcode, (.sent false, {})]
      (fun _ machine => decide (machine.state = state) &&
        decide (machine.tasks = []) &&
          decide (machine.data.agreedRemoteEndpoint = .client)) checked
  simp only [Bool.and_eq_true, decide_eq_true_eq] at passes
  exact ⟨machine, ⟨history, run⟩, passes.1.1, passes.1.2, passes.2⟩

/-- A read session ignores the ACK of a stranger, and a run with such an ACK
sends the same without it. -/
theorem stranger_ack_ignored :
    (∃ machine, Reachable .loopback machine ∧
      Ignores machine .stranger ⟨Packet.ackPacket 1, by decide⟩) ∧
    (∃ history machine replay last,
      Reaches .loopback history machine ∧ history.any Step.foreign = true ∧
        Reaches .loopback replay last ∧
          (replay.flatMap Transition.outputs).filterMap Effect.visible =
            (history.flatMap Transition.outputs).filterMap
              Effect.visible) := by
  constructor
  · obtain ⟨machine, reachable, waits, idle, agreed⟩ :=
      exists_waiting .readRequest .waitingForAck (by decide +kernel)
    exact ⟨machine, reachable, ((strangers_ignored_iff .loopback).1 machine _ _
      reachable idle (.inl waits) (by rw [agreed]; decide)).mpr
        ⟨waits, by decide⟩⟩
  · obtain ⟨history, machine, _, run, passes⟩ :=
      exists_reaches_of_converse .loopback
        [openTransfer .readRequest, (.sent false, {}),
          (.received .stranger ⟨Packet.ackPacket 1, by decide⟩, {}),
          (.received .client ⟨Packet.ackPacket 1, by decide⟩, {})]
        (fun history _ => history.any Step.foreign &&
          history.all fun step => decide (Step.Harmless step))
        (by decide +kernel)
    simp only [Bool.and_eq_true, List.all_eq_true, decide_eq_true_eq]
      at passes
    obtain ⟨foreign, harmless⟩ := passes
    obtain ⟨replay, last, replayed, _, observed⟩ :=
      (strangers_ignored_iff .loopback).2 history machine run harmless
    exact ⟨history, machine, replay, last, run, foreign, replayed, observed⟩

/-- One byte of a stranger takes an upload to `WaitingForAck`, and an error
packet of a stranger ends a download. -/
theorem strangers_interfere :
    (∃ machine history next, Reachable .loopback machine ∧
      machine.data.agreedRemoteEndpoint ≠ .stranger ∧
      machine.state = .waitingForData ∧
        Handles machine (.received .stranger ⟨[0], by decide⟩) history next ∧
          next.state = .waitingForAck) ∧
    (∃ machine history next, Reachable .loopback machine ∧
      machine.data.agreedRemoteEndpoint ≠ .stranger ∧
      machine.state = .waitingForAck ∧
        Handles machine
          (.received .stranger ⟨Packet.errorPacket 0, by decide⟩)
          history next ∧
            next.state = .accepting) := by
  constructor
  · obtain ⟨machine, reachable, waits, idle, agreed⟩ :=
      exists_waiting .writeRequest .waitingForData (by decide +kernel)
    obtain ⟨past, run⟩ := reachable
    obtain ⟨history, next, handles, crosses⟩ :=
      exists_crossing .stranger ⟨[0], by decide⟩ run.wellFormed waits idle
        (by rw [agreed]; decide)
    exact ⟨machine, history, next, ⟨past, run⟩, by rw [agreed]; decide, waits,
      handles, crosses⟩
  · obtain ⟨machine, reachable, waits, idle, agreed⟩ :=
      exists_waiting .readRequest .waitingForAck (by decide +kernel)
    obtain ⟨past, run⟩ := reachable
    obtain ⟨history, next, handles, ends⟩ :=
      exists_abort .stranger ⟨Packet.errorPacket 0, by decide⟩ run.wellFormed
        waits idle (by decide)
    exact ⟨machine, history, next, ⟨past, run⟩, by rw [agreed]; decide, waits,
      handles, ends⟩

end Examples

end MsmTftp
