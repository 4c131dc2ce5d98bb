import MsmTftp.SessionStranger

/-!
# Bytes left behind in the receive buffer

The header views read four bytes and the tokenizer reads up to the next NUL,
whatever the length of the packet.  In the waiting states every such read
stands behind a test of the length, and in `Accepting` the buffer was cleared
before the datagram was written to it.  Two sessions that differ only in what
earlier packets left in the buffer therefore behave alike.
-/

namespace MsmTftp

open CellBuffer TransitionSystem

/-- The machine with another receive buffer. -/
def Machine.holding (machine : Machine) (buffer : Buffer UInt8) : Machine :=
  { machine with data := { machine.data with receiveBuffer := buffer } }

/-- Every byte of the buffer is one that some run leaves in its cell while an
operation of the state is outstanding. -/
def LeftBehind (config : Config) (state : State) (buffer : Buffer UInt8) :
    Prop :=
  ∀ cell, ∃ machine, Reachable config machine ∧ machine.state = state ∧
    machine.outstanding ≠ [] ∧
      machine.data.receiveBuffer cell = buffer cell

/-- The data agree on everything but the receive buffer. -/
def SessionData.SameButBuffer (data other : SessionData) : Prop :=
  other = { data with receiveBuffer := other.receiveBuffer }

/-- Two machines that differ only in bytes left behind. -/
structure Lookalike (machine twin : Machine) : Prop where
  state : twin.state = machine.state
  tasks : twin.tasks = machine.tasks
  outstanding : twin.outstanding = machine.outstanding
  data : machine.data.SameButBuffer twin.data
  packet : machine.tasks = [.process .packetReceived] →
    twin.data.incoming = machine.data.incoming
  accepting : machine.state = .accepting → twin.data = machine.data

section Leftovers

variable {config : Config} {machine twin next : Machine} {input : Input}
  {effects : List Effect} {buffer : Buffer UInt8}

theorem SessionData.SameButBuffer.transfer {data other : SessionData}
    (same : data.SameButBuffer other) : data.SameTransfer other := by
  unfold SameButBuffer at same
  unfold SameTransfer
  rw [same]

theorem SessionData.SameTransfer.sameButBuffer {data other : SessionData}
    (same : data.SameTransfer other)
    (size : other.receivedPacket = data.receivedPacket)
    (sender : other.lastRemoteEndpoint = data.lastRemoteEndpoint) :
    data.SameButBuffer other := by
  unfold SameTransfer at same
  unfold SameButBuffer
  rw [size, sender] at same
  exact same

theorem Lookalike.refl (machine : Machine) : Lookalike machine machine :=
  ⟨rfl, rfl, rfl, rfl, fun _ => rfl, fun _ => rfl⟩

/-- In `Accepting` lookalikes are equal. -/
theorem Lookalike.eq_of_accepting (alike : Lookalike machine twin)
    (accepts : machine.state = .accepting) : twin = machine := by
  obtain ⟨state, tasks, outstanding, _, _, accepting⟩ := alike
  cases machine
  cases twin
  simp_all

theorem Lookalike.holding (alike : Lookalike machine twin) :
    twin = machine.holding twin.data.receiveBuffer := by
  obtain ⟨states, tasks, outstanding, same, _, _⟩ := alike
  obtain ⟨state, data, operations, left⟩ := twin
  simp only at states tasks outstanding same
  subst states tasks outstanding
  unfold SessionData.SameButBuffer at same
  rw [Machine.holding, ← same]

theorem Lookalike.complete (alike : Lookalike machine twin)
    {completion : Completion} (serving : machine.state ≠ .accepting)
    (wellFormed : machine.WellFormed config)
    (stepped : machine.step (.complete completion) = some (next, effects)) :
    ∃ twinNext, twin.step (.complete completion) = some (twinNext, effects) ∧
      Lookalike next twinNext := by
  have same := alike.data
  unfold SessionData.SameButBuffer at same
  cases stepCases stepped with
  | complete settled idle started =>
      obtain ⟨uses, _, begins⟩ := complete_same alike.state alike.tasks
        alike.outstanding serving wellFormed idle started
      cases completion with
      | accepted sender datagram => exact absurd rfl uses
      | acceptFailed => exact absurd rfl uses
      | received sender datagram =>
          refine ⟨_, begins, alike.state, rfl, ?_, ?_, ?_, ?_⟩
          · simp [alike.outstanding]
          · rw [same]
            rfl
          · intro _
            exact (incoming_received sender datagram).trans
              (incoming_received sender datagram).symm
          · exact fun accepts => absurd accepts serving
      | _ =>
          refine ⟨_, begins, alike.state, rfl, ?_, ?_, ?_, ?_⟩
          · simp [alike.outstanding]
          · rw [same]
            rfl
          · simp [Completion.start]
          · exact fun accepts => absurd accepts serving

theorem Lookalike.fire (alike : Lookalike machine twin) {row : Row}
    {environment : Environment} (serving : machine.state ≠ .accepting)
    (wellFormed : machine.WellFormed config)
    (stepped : machine.step (.fire row environment) = some (next, effects)) :
    ∃ twinNext, twin.step (.fire row environment) = some (twinNext, effects) ∧
      Lookalike next twinNext := by
  have sender : twin.data.lastRemoteEndpoint =
      machine.data.lastRemoteEndpoint := by
    rw [alike.data]
  have size : twin.data.receivedPacket = machine.data.receivedPacket := by
    rw [alike.data]
  obtain ⟨event, exitEffects, cases, fired, transferSame, resetSame⟩ :=
    fire_same alike.state alike.tasks alike.outstanding alike.data.transfer
      (fun received => ⟨alike.packet received, sender⟩) serving wellFormed
      stepped
  have acted : (row.action.run environment event
      machine.data).1.SameButBuffer
        (row.action.run environment event twin.data).1 := by
    by_cases resets : row.action = .reset
    · rw [resetSame resets]
      rfl
    · have here := run_keepsSession environment event machine.data resets
      have there := run_keepsSession environment event twin.data resets
      apply transferSame.sameButBuffer
      · rw [there.packet, here.packet, size]
      · rw [there.sender, here.sender, sender]
  have entered : (Machine.entering row.target (row.action.run environment
      event machine.data).1).data.SameButBuffer
        (Machine.entering row.target (row.action.run environment event
          twin.data).1).data := by
    unfold SessionData.SameButBuffer at acted ⊢
    simp only [Machine.entering, entry_data]
    rw [acted]
    split <;> rfl
  refine ⟨_, fired, ?_⟩
  rw [cases.next_eq]
  refine ⟨rfl, rfl, ?_, entered, by simp, ?_⟩
  · simp only [Machine.entering]
    rw [entry_same _ transferSame]
  · intro accepts
    have target : row.target = .accepting := accepts
    unfold SessionData.SameButBuffer at acted
    simp only [Machine.entering, entry_data, target, if_true]
    rw [acted]

theorem Lookalike.step (alike : Lookalike machine twin)
    (wellFormed : machine.WellFormed config)
    (stepped : machine.step input = some (next, effects)) :
    ∃ twinNext, twin.step input = some (twinNext, effects) ∧
      Lookalike next twinNext := by
  by_cases accepts : machine.state = .accepting
  · obtain rfl := alike.eq_of_accepting accepts
    exact ⟨next, stepped, .refl next⟩
  · cases input with
    | complete completion => exact alike.complete accepts wellFormed stepped
    | fire row environment => exact alike.fire accepts wellFormed stepped
    | parse => exact absurd (wellFormed.accepting_of_parse stepped) accepts
    | reject => exact absurd (wellFormed.accepting_of_reject stepped) accepts

/-- Runs leave only zeros in the buffer of a listening session. -/
theorem LeftBehind.eq_fill (left : LeftBehind config .accepting buffer) :
    buffer = fill 0 := by
  funext cell
  obtain ⟨machine, ⟨history, run⟩, accepts, listens, here⟩ := left cell
  have rested := run.wellFormed.rested (.inr ⟨accepts, listens⟩)
  rw [SessionData.Rested] at rested
  rw [← here, rested]
  rfl

/-- A machine that waits for a packet is well formed with any receive
buffer. -/
theorem Machine.WellFormed.holding (wellFormed : machine.WellFormed config)
    (serving : machine.state ≠ .accepting)
    (waits : machine.state.operation ≠ none) (buffer : Buffer UInt8) :
    (machine.holding buffer).WellFormed config where
  configured := wellFormed.configured
  shape := wellFormed.shape
  rested := by
    rintro (rests | ⟨accepts, _⟩)
    · have rests : machine.state = .resetted := rests
      simp [rests, State.operation] at waits
    · exact absurd accepts serving
  pristine accepts := absurd accepts serving
  socketOpen := wellFormed.socketOpen

end Leftovers

/-- What earlier packets left in the receive buffer has no influence: from the
completion that delivers a datagram on, the same steps are possible, with the
same events, effects and transfer data. -/
theorem stale_bytes_ignored (config : Config) (machine next : Machine)
    (first second : Buffer UInt8) (completion : Completion)
    (delivery : Step) (rest : List Step)
    (reachable : Reachable config machine)
    (leftFirst : LeftBehind config machine.state first)
    (leftSecond : LeftBehind config machine.state second)
    (delivered : delivery.input = .complete completion)
    (run : session.Run (machine.holding first) (delivery :: rest) next) :
    ∃ replay last, session.Run (machine.holding second) replay last ∧
      replay.map Transition.input =
        (delivery :: rest).map Transition.input ∧
      replay.map Transition.outputs =
        (delivery :: rest).map Transition.outputs ∧
      last = next.holding last.data.receiveBuffer := by
  by_cases accepts : machine.state = .accepting
  · rw [accepts] at leftFirst leftSecond
    rw [leftFirst.eq_fill] at run
    rw [leftSecond.eq_fill]
    exact ⟨_, next, run, rfl, rfl, (Lookalike.refl next).holding⟩
  · obtain ⟨past, reaches⟩ := reachable
    obtain ⟨before, input, outputs, after⟩ := delivery
    have delivered : input = .complete completion := delivered
    subst delivered
    obtain ⟨rfl, stepped, continues⟩ := session_run_cons.mp run
    have waits : machine.state.operation ≠ none ∧ machine.tasks = [] := by
      cases stepCases stepped with
      | complete settled idle started =>
          have waits := settled_iff.mp settled
          exact ⟨waits, idle⟩
    have alike : Lookalike (machine.holding first) (machine.holding second) :=
      ⟨rfl, rfl, rfl, rfl, by simp [Machine.holding, waits.2],
        fun also => absurd also accepts⟩
    obtain ⟨replay, last, replayed, ⟨_, ends⟩, inputs, effects⟩ := run.mirror
      (fun machine twin => machine.WellFormed config ∧ Lookalike machine twin)
      ⟨reaches.wellFormed.holding accepts waits.1 first, alike⟩
      (by
        rintro transition twin ⟨wellFormed, alike⟩ admitted
        obtain ⟨twinNext, taken, after⟩ := alike.step wellFormed admitted
        exact ⟨twinNext, taken, wellFormed.step admitted, after⟩)
    exact ⟨replay, last, replayed, inputs, effects, ends.holding⟩

section Examples

private theorem exists_waiting_after (strangers : List Datagram)
    (byte : UInt8)
    (checked : ((Machine.started .loopback).converse
        ((.accepted .client (requestOf .readRequest), {}) ::
          (.sent false, {}) :: strangers.map fun datagram =>
            (.received {} datagram, {}))).map
      (fun result => decide (result.2.state = .waitingForAck ∧
        result.2.tasks = [] ∧ result.2.outstanding ≠ [] ∧
          result.2.data.receiveBuffer 4 = byte)) = some true) :
    ∃ machine, Reachable .loopback machine ∧
      machine.state = .waitingForAck ∧ machine.tasks = [] ∧
        LeftBehind .loopback .waitingForAck machine.data.receiveBuffer ∧
          machine.data.receiveBuffer 4 = byte := by
  obtain ⟨history, machine, _, run, passes⟩ :=
    exists_reaches_of_converse .loopback _
      (fun _ machine => decide (machine.state = .waitingForAck ∧
        machine.tasks = [] ∧ machine.outstanding ≠ [] ∧
          machine.data.receiveBuffer 4 = byte)) checked
  obtain ⟨waits, idle, outstanding, left⟩ := of_decide_eq_true passes
  exact ⟨machine, ⟨history, run⟩, waits, idle,
    fun cell => ⟨machine, ⟨history, run⟩, waits, outstanding, rfl⟩, left⟩

/-- The first ACK of a download is handled alike over the bytes of the request
and over those of a stranger's packet. -/
theorem first_ack_handled_alike :
    ∃ machine second history next replay last,
      Reachable .loopback machine ∧
      second ≠ machine.data.receiveBuffer ∧
      Handles machine (.received .client (ackOf 1)) history next ∧
      session.Run (machine.holding second) replay last ∧
      replay.map Transition.outputs = history.map Transition.outputs ∧
      last = next.holding last.data.receiveBuffer := by
  obtain ⟨machine, reachable, waits, idle, left, here⟩ :=
    exists_waiting_after [] 111 (by decide +kernel)
  obtain ⟨other, _, _, _, leftOther, there⟩ :=
    exists_waiting_after [⟨[0, 0, 0, 0, 0], by decide⟩] 0 (by decide +kernel)
  obtain ⟨past, run⟩ := id reachable
  obtain ⟨history, next, handles, _⟩ :=
    run.wellFormed.exists_handles_received (by rw [waits]; rfl) idle .client
      (ackOf 1) {}
  obtain ⟨delivery, rest, rfl, delivered, _, continues, _⟩ := id handles
  obtain ⟨replay, last, replayed, _, outputs, same⟩ := stale_bytes_ignored
    .loopback machine next machine.data.receiveBuffer
      other.data.receiveBuffer _ delivery rest reachable
      (by rw [waits]; exact left) (by rw [waits]; exact leftOther) delivered
      continues
  refine ⟨machine, other.data.receiveBuffer, _, next, replay, last, reachable,
    ?_, handles, replayed, outputs, same⟩
  intro equal
  rw [equal, here] at there
  simp at there

end Examples

end MsmTftp
