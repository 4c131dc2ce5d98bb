import MsmTftp.SessionConversation
import MsmTftp.SessionInversion

/-!
# Conflicting rows of the joint table

Boost.MSM fires one row for an event, and its choice matters only where two
guards are true at once.  There are two such overlaps: the OACK row of
`ReadRequestReceived` does not exclude an error, and the row that resets on an
error packet does not exclude the rows for packets that are no ACK and for
strangers.
-/

namespace MsmTftp

open CellBuffer TransitionSystem

/-- The overlaps of the joint table. -/
def SessionData.Ambiguous (data : SessionData) (state : State)
    (event : Option EventKind) : Prop :=
  state = .readRequestReceived ∧ event = none ∧
      data.hasError = true ∧ data.hasOptions = true ∨
    state = .waitingForAck ∧ event = some .packetReceived ∧
      data.hasErrReceived = true

variable {data : SessionData} {source : State} {event : Option EventKind}

/-- Outside the overlaps an event determines the row. -/
theorem Firing.deterministic {first second : Action} {one other : State}
    (fires : Firing data source event first one)
    (also : Firing data source event second other)
    (clear : ¬ data.Ambiguous source event) :
    first = second ∧ one = other := by
  have noErr : data.hasAckReceived = true → data.hasErrReceived = false :=
    SessionData.hasErrReceived_of_hasAckReceived
  have noRead : data.hasWriteRequestReceived = true →
      data.hasReadRequestReceived = false :=
    SessionData.hasReadRequestReceived_of_hasWriteRequestReceived
  simp only [SessionData.Ambiguous] at clear
  cases fires <;> cases also <;> simp_all

/-- In an overlap two rows with different actions are enabled. -/
theorem SessionData.Ambiguous.exists_firings
    (ambiguous : data.Ambiguous source event) :
    ∃ first one second other, Firing data source event first one ∧
      Firing data source event second other ∧ first ≠ second := by
  rcases ambiguous with ⟨rfl, rfl, error, options⟩ | ⟨rfl, rfl, error⟩
  · exact ⟨_, _, _, _, .announceOptions options, .refuseRead error, by simp⟩
  · cases agreed : data.fromAgreedEndpoint with
    | false =>
        exact ⟨_, _, _, _, .oldAck (.inl agreed), .finish (.inl error),
          by simp⟩
    | true =>
        have other : data.hasAckReceived = false := by
          cases ack : data.hasAckReceived with
          | false => rfl
          | true =>
              simp [SessionData.hasErrReceived_of_hasAckReceived ack] at error
        exact ⟨_, _, _, _, .notAck agreed other, .finish (.inl error),
          by simp⟩

private theorem enabledRows_nodup : (enabledRows source event data).Nodup :=
  List.Pairwise.filter _ (by decide +kernel : jointTransitionTable.Nodup)

/-- At most one row is enabled exactly outside the two overlaps. -/
theorem enabledRows_length_le_one_iff (state : State)
    (event : Option EventKind) (data : SessionData) :
    (enabledRows state event data).length ≤ 1 ↔
      ¬ data.Ambiguous state event := by
  constructor
  · intro short ambiguous
    obtain ⟨first, one, second, other, fires, also, different⟩ :=
      ambiguous.exists_firings
    obtain ⟨row, enabled, rfl, _⟩ := fires.exists_row
    obtain ⟨twin, conflicting, rfl, _⟩ := also.exists_row
    match rows : enabledRows state event data with
    | [] => simp [rows] at enabled
    | [only] =>
        simp only [rows, List.mem_singleton] at enabled conflicting
        exact different (by rw [enabled, conflicting])
    | _ :: _ :: _ => simp [rows] at short
  · intro clear
    have distinct : (enabledRows state event data).Nodup := enabledRows_nodup
    match rows : enabledRows state event data with
    | [] => simp
    | [_] => simp
    | first :: second :: rest =>
        have enabled : first ∈ enabledRows state event data := by simp [rows]
        have also : second ∈ enabledRows state event data := by simp [rows]
        obtain ⟨actions, targets⟩ := (firing_of_enabled enabled).deterministic
          (firing_of_enabled also) clear
        have same := enabledRows_injective enabled also actions targets
        simp [rows, same] at distinct

section Overlaps

private def badModeRequest : Datagram where
  bytes := wordBytes 1 ++ asciiBytes ['f', '\x00', 'x', '\x00'] ++
    BlockSizeDecoder.kBlockSizeOption ++ [0] ++ asciiBytes ['8', '\x00']
  fits := by decide

private theorem exists_overlap
    (answers : List (Completion × Environment)) (state : State)
    (event : Option Event) (targets : List State)
    (checked : ((Machine.started .loopback).converse answers).map
      (fun result => (List.range result.1.length).any fun index =>
        result.1[index]?.any fun step =>
          decide (step.before.state = state) &&
            decide (step.before.tasks = event.toList.map Task.process) &&
            decide ((enabledRows state (event.map Event.kind)
              step.before.data).map Row.target = targets)) = some true) :
    ∃ machine, Reachable .loopback machine ∧ machine.state = state ∧
      machine.tasks = event.toList.map Task.process ∧
        (enabledRows state (event.map Event.kind) machine.data).map
          Row.target = targets := by
  obtain ⟨past, step, run, _, passes⟩ := exists_step_of_converse .loopback
    answers
    (fun _ step => decide (step.before.state = state) &&
      decide (step.before.tasks = event.toList.map Task.process) &&
      decide ((enabledRows state (event.map Event.kind)
        step.before.data).map Row.target = targets)) checked
  simp only [Bool.and_eq_true, decide_eq_true_eq] at passes
  obtain ⟨⟨found, running⟩, conflict⟩ := passes
  exact ⟨step.before, ⟨past, run⟩, found, running, conflict⟩

/-- Both overlaps are reachable, and the rows in conflict lead to different
states: a read request with an unknown mode and a block size may be answered
by an OACK or an error, and an error packet of the client may be answered by
an error or end the transfer. -/
theorem rows_conflict :
    (∃ machine, Reachable .loopback machine ∧
      machine.state = .readRequestReceived ∧ machine.tasks = [] ∧
        (enabledRows .readRequestReceived none machine.data).map
          Row.target = [.dataRead, .sendingError]) ∧
    (∃ machine, Reachable .loopback machine ∧
      machine.state = .waitingForAck ∧
        machine.tasks = [.process .packetReceived] ∧
          (enabledRows .waitingForAck (some .packetReceived)
            machine.data).map Row.target = [.sendingError, .resetted]) :=
  ⟨exists_overlap [(.accepted .client badModeRequest, {})] _ none _
      (by decide +kernel),
    exists_overlap [(.accepted .client (requestOf .readRequest), {}),
      (.sent false, {}),
      (.received .client ⟨Packet.errorPacket 0, by decide⟩, {})] _
      (some .packetReceived) _ (by decide +kernel)⟩

end Overlaps

end MsmTftp
