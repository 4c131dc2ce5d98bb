import MsmTftp.SessionUpload

/-!
# Block numbers of long uploads

Block numbers have 16 bits on the wire, and the session compares the number
received with the number of the block saved last.  After block 65535 the next
block carries the number 0, which passes for an old one.
-/

namespace MsmTftp

open CellBuffer TransitionSystem

/-- No error is recorded while an upload sends an ACK or waits for a block. -/
def Machine.Clean (machine : Machine) : Prop :=
  machine.state = .sendingAck ∨ machine.state = .waitingForData →
    machine.data.hasError = false

/-- The client of an upload sends the block that follows the one saved
last. -/
structure Follows (machine : Machine) (datagram : Datagram) : Prop where
  waits : machine.state = .waitingForData
  idle : machine.tasks = []
  long : 4 ≤ datagram.bytes.length
  opcode : Packet.opCode datagram.bytes = .data
  number : Packet.word datagram.bytes =
    UInt16.ofNat (machine.data.lastSavedBlock + 1)

/-- The handler of a block writes it and sends its ACK. -/
def AcceptsBlock (machine : Machine) (datagram : Datagram)
    (history : List Step) : Prop :=
  writtenBlocks history = [Packet.payload datagram.bytes] ∧
    sentPackets history =
      [(Packet.ackPacket (Packet.word datagram.bytes),
        machine.data.agreedRemoteEndpoint)]

section Cleanness

variable {config : Config} {machine next : Machine}

theorem Firing.clean {data : SessionData} {source target : State}
    {event : Option EventKind} {action : Action}
    (environment : Environment) (happens : Option Event)
    (firing : Firing data source event action target)
    (clean : source = .sendingAck ∨ source = .waitingForData →
      data.hasError = false)
    (enters : target = .sendingAck ∨ target = .waitingForData) :
    (action.run environment happens data).1.hasError = false := by
  cases firing with
  | grantWrite noError => exact noError
  | ackSent => exact clean (.inl rfl)
  | resendAck retry => exact clean (.inr rfl)
  | dataSaved noError => exact noError
  | _ => simp at enters

theorem Machine.Clean.step {input : Input} {effects : List Effect}
    (clean : machine.Clean)
    (stepped : machine.step input = some (next, effects)) : next.Clean := by
  cases stepCases stepped with
  | @complete completion settled idle started =>
      intro enters
      have noError := clean enters
      cases completion <;> exact noError
  | parse settled running => exact clean
  | reject settled running refused => exact clean
  | @fire row environment event tasks exitEffects settled running firing
      exits acted entered acts enters =>
      intro waits
      have noError := firing.clean environment event clean waits
      subst acts enters
      rw [entry_data]
      split <;> exact noError

theorem Reachable.clean (reachable : Reachable config machine) :
    machine.Clean := by
  obtain ⟨history, run⟩ := reachable
  exact run.invariant Machine.Clean (by simp [Machine.Clean, Machine.started])
    fun _ clean admitted => clean.step admitted

end Cleanness

section Uploads

variable {config : Config} {machine next : Machine} {datagram : Datagram}
  {history : List Step}

theorem writeData_of_failed {data : SessionData} {environment : Environment}
    (fails : ¬ (data.fileStream.good = true ∧
      environment.acceptsWrite = true)) :
    (writeData environment data).1.hasError = true ∧
      (writeData environment data).2 = [] := by
  have refused :
      (data.fileStream.good && environment.acceptsWrite) = false := by
    simpa [Bool.and_eq_true_iff] using fails
  rw [writeData_of_refused refused]
  exact ⟨rfl, rfl⟩

theorem Follows.hasDataReceived (follows : Follows machine datagram) :
    (machine.data.received machine.data.agreedRemoteEndpoint
      datagram).hasDataReceived = true :=
  (hasDataReceived_received _ datagram).mpr
    ⟨follows.long, follows.opcode, rfl⟩

/-- The block that follows is new unless the counter has wrapped. -/
theorem Follows.isOldData (follows : Follows machine datagram) :
    (machine.data.received machine.data.agreedRemoteEndpoint
      datagram).isOldData = decide (65535 ≤ machine.data.lastSavedBlock) := by
  rw [isOldData_received _ datagram follows.long, follows.number,
    UInt16.toNat_ofNat']
  have bound := Nat.mod_lt (machine.data.lastSavedBlock + 1)
    (show 0 < 2 ^ 16 by decide)
  rw [decide_eq_decide]
  constructor
  · intro wrapped
    by_contra below
    rw [Nat.mod_eq_of_lt (by omega)] at wrapped
    omega
  · omega

theorem Follows.ignored (follows : Follows machine datagram)
    (wrapped : 65535 ≤ machine.data.lastSavedBlock)
    (wellFormed : machine.WellFormed config)
    (handles : Handles machine
      (.received machine.data.agreedRemoteEndpoint datagram) history next) :
    writtenBlocks history = [] ∧ next.state = .waitingForAck := by
  have arrived := follows.hasDataReceived
  have old := follows.isOldData
  have only : ∀ action target, Firing
      (machine.data.received machine.data.agreedRemoteEndpoint datagram)
        machine.state (some .packetReceived) action target →
          action = .none ∧ target = .waitingForAck := by
    intro action target firing
    rw [follows.waits] at firing
    cases firing <;> simp_all
  obtain ⟨rfl, _, nothing⟩ := handles.ignored wellFormed only
  exact ⟨nothing, rfl⟩

theorem Settles.of_saved {allowed : Action → Environment → Prop}
    {data : SessionData} {effects : List Effect}
    (settles : Settles allowed .dataWritten data.saved effects next)
    (noError : data.hasError = false) :
    effects = [.sendTo (Packet.ackPacket data.receivedWord)
      data.agreedRemoteEndpoint] := by
  have acknowledges : (formAckPacket data.saved).outgoing =
      Packet.ackPacket data.receivedWord := by
    simp [SessionData.saved]
  cases settles with
  | waits waits => simp [State.operation] at waits
  | passes environment permitted firing settles =>
      cases firing with
      | dataSaved =>
          obtain ⟨rfl, _⟩ := settles.of_waits (by simp [State.operation])
          simp only [Action.run, State.entry, enterSending, acknowledges]
          rfl
      | saveFailed error =>
          have failed : data.hasError = true := error
          simp [noError] at failed

theorem Settles.of_failed {allowed : Action → Environment → Prop}
    {data : SessionData} {effects : List Effect}
    (settles : Settles allowed .dataWritten data effects next)
    (error : data.hasError = true) :
    effects.filterMap Effect.written = [] := by
  cases settles with
  | waits waits => simp [State.operation] at waits
  | passes environment permitted firing settles =>
      cases firing with
      | dataSaved noError => simp [error] at noError
      | saveFailed =>
          obtain ⟨rfl, _⟩ := settles.of_waits (by simp [State.operation])
          rfl

/-- Before, it is written and acknowledged, unless the write fails. -/
theorem Follows.handled (follows : Follows machine datagram)
    (below : machine.data.lastSavedBlock < 65535)
    (clean : machine.Clean) (allowed : Action → Environment → Prop)
    (wellFormed : machine.WellFormed config)
    (handles : Handles machine
      (.received machine.data.agreedRemoteEndpoint datagram) history next)
    (meets : ∀ step ∈ history, Step.Meets step allowed) :
    ∃ environment, allowed .writeData environment ∧
      (∀ step ∈ history, ∀ row other, Transition.input step =
        .fire row other → row.action = .writeData → other = environment) ∧
      (machine.data.fileStream.good = true ∧
          environment.acceptsWrite = true →
        AcceptsBlock machine datagram history) ∧
      (¬ (machine.data.fileStream.good = true ∧
          environment.acceptsWrite = true) →
        writtenBlocks history = []) := by
  obtain ⟨action, target, environment, exitEffects, effects, permitted,
    firing, exits, settles, outputs, silent⟩ :=
      handles.received allowed wellFormed meets
  rw [follows.waits] at firing
  have arrived := follows.hasDataReceived
  have new := follows.isOldData
  rw [decide_eq_false (by omega)] at new
  obtain ⟨rfl, rfl⟩ : action = .writeData ∧ target = .dataWritten := by
    cases firing <;> simp_all
  have noError : (machine.data.received machine.data.agreedRemoteEndpoint
      datagram).hasError = false := clean (.inr follows.waits)
  rw [Action.run] at settles outputs
  refine ⟨environment, permitted, ?_, ?_, ?_⟩
  · intro step member row other taken saves
    exact (silent (by simp) step member row other taken
      (by rw [saves]; rfl)).2
  · intro succeeds
    rw [writeData_of_good (by exact succeeds.1) succeeds.2,
      incoming_received] at outputs
    rw [writeData_of_good (by exact succeeds.1) succeeds.2] at settles
    rw [settles.of_saved noError,
      receivedWord_received _ datagram follows.long] at outputs
    rw [AcceptsBlock, writtenBlocks, sentPackets, outputs,
      filterMap_after_exit rfl rfl exits, filterMap_after_exit rfl rfl exits]
    exact ⟨rfl, rfl⟩
  · intro fails
    obtain ⟨error, nothing⟩ : _ ∧ (writeData environment
        (machine.data.received machine.data.agreedRemoteEndpoint
          datagram)).2 = [] :=
      writeData_of_failed fails
    have silent := settles.of_failed error
    rw [writtenBlocks, outputs, nothing, filterMap_after_exit rfl rfl exits]
    exact silent

theorem Follows.accepts_iff (follows : Follows machine datagram)
    (clean : machine.Clean) (wellFormed : machine.WellFormed config)
    (handles : Handles machine
      (.received machine.data.agreedRemoteEndpoint datagram) history next) :
    AcceptsBlock machine datagram history ↔
      machine.data.lastSavedBlock < 65535 ∧
        machine.data.fileStream.good = true ∧
          ∀ step ∈ history, Step.writeSucceeds step = true := by
  constructor
  · rintro ⟨written, _⟩
    have below : machine.data.lastSavedBlock < 65535 := by
      by_contra wrapped
      have ignored := follows.ignored (by omega) wellFormed handles
      simp [ignored.1] at written
    obtain ⟨environment, _, only, _, lost⟩ := follows.handled below clean
      (fun _ _ => True) wellFormed handles (by simp [Step.Meets])
    by_cases succeeds : machine.data.fileStream.good = true ∧
        environment.acceptsWrite = true
    · refine ⟨below, succeeds.1, ?_⟩
      rintro ⟨before, input, outputs, after⟩ member
      cases input with
      | fire row other =>
          by_cases saves : row.action = .writeData
          · have same := only _ member row other rfl saves
            simp [Step.writeSucceeds, same, succeeds.2]
          · simp [Step.writeSucceeds, saves]
      | _ => rfl
    · simp [lost succeeds] at written
  · rintro ⟨below, good, succeeds⟩
    have accepting : ∀ step ∈ history, Step.Meets step
        fun action environment => action = .writeData →
          environment.acceptsWrite = true := by
      intro step member row environment fired saves
      have accepts := succeeds step member
      simpa [Step.writeSucceeds, fired, saves] using accepts
    obtain ⟨environment, accepted, _, taken, _⟩ :=
      follows.handled below clean _ wellFormed handles accepting
    exact taken ⟨good, accepted rfl⟩

theorem exists_next_block (reachable : Reachable config machine)
    (waits : machine.state = .waitingForData) (idle : machine.tasks = [])
    (good : machine.data.fileStream.good = true)
    (below : machine.data.lastSavedBlock < 65535) :
    ∃ next, Reachable config next ∧ next.state = .waitingForData ∧
      next.tasks = [] ∧ next.data.fileStream.good = true ∧
        next.data.lastSavedBlock = machine.data.lastSavedBlock + 1 := by
  obtain ⟨past, run⟩ := id reachable
  let datagram : Datagram :=
    ⟨Packet.dataPacket (UInt16.ofNat (machine.data.lastSavedBlock + 1)) [],
      Nat.le_of_ble_eq_true rfl⟩
  let data := machine.data.received machine.data.agreedRemoteEndpoint datagram
  have follows : Follows machine datagram :=
    ⟨waits, idle, Nat.le_of_ble_eq_true rfl, Packet.opCode_dataPacket _ _,
      Packet.word_dataPacket _ _⟩
  have noError : data.hasError = false := reachable.clean (.inr waits)
  have new : data.isOldData = false := by
    rw [follows.isOldData, decide_eq_false (by omega)]
  have written : writeData {} data =
      (data.saved, [.writeFile (Packet.payload data.incoming)]) :=
    writeData_of_good good rfl
  have firing : Firing data machine.state (some .packetReceived) .writeData
      .dataWritten := by
    rw [waits]
    exact .newData (by simp [data]) follows.hasDataReceived new
  obtain ⟨effects, settles⟩ : ∃ effects,
      Settles (fun _ _ => True) .dataWritten
        (Action.run {} (some .packetReceived) data .writeData).1 effects
          (Machine.entering .sendingAck (formAckPacket data.saved)) := by
    rw [Action.run, written]
    exact ⟨_, .passes {} trivial (.dataSaved noError)
      (.waits (by simp [State.operation]))⟩
  obtain ⟨first, received, _⟩ := run.wellFormed.exists_received
    (fun _ _ => True) (by rw [waits]; rfl) idle {} trivial firing settles
  have isOpen : machine.data.socketOpen = true :=
    run.wellFormed.socketOpen (by rw [waits]; rfl)
  obtain ⟨second, sent, _⟩ :=
    (received.wellFormed run.wellFormed).exists_sent (fun _ _ => True) rfl
      rfl isOpen trivial .ackSent (by simp [State.operation])
  refine ⟨_, (reachable.handles received).handles sent, rfl, rfl, good, ?_⟩
  change data.receivedWord.toNat = _
  rw [receivedWord_received _ datagram follows.long, follows.number,
    UInt16.toNat_ofNat', Nat.mod_eq_of_lt (by omega)]

end Uploads

/-- An upload accepts the block that follows the last one, modulo 2^16,
exactly before block 65535 and when the write succeeds. -/
theorem next_block_accepted_iff (config : Config) (machine : Machine)
    (datagram : Datagram) (reachable : Reachable config machine)
    (follows : Follows machine datagram) :
    (∃ history next, Handles machine
      (.received machine.data.agreedRemoteEndpoint datagram) history next) ∧
    ∀ history next, Handles machine
      (.received machine.data.agreedRemoteEndpoint datagram) history next →
      (AcceptsBlock machine datagram history ↔
        machine.data.lastSavedBlock < 65535 ∧
          machine.data.fileStream.good = true ∧
            ∀ step ∈ history, Step.writeSucceeds step = true) := by
  obtain ⟨past, run⟩ := id reachable
  constructor
  · obtain ⟨history, next, handles, _⟩ :=
      run.wellFormed.exists_handles_received (by rw [follows.waits]; rfl)
        follows.idle machine.data.agreedRemoteEndpoint datagram {}
    exact ⟨history, next, handles⟩
  · intro history next handles
    exact follows.accepts_iff reachable.clean run.wellFormed handles

section Examples

/-- A client can bring an upload to any block number. -/
private theorem exists_saved (count : Nat) (bound : count ≤ 65535) :
    ∃ machine, Reachable .loopback machine ∧
      machine.state = .waitingForData ∧ machine.tasks = [] ∧
        machine.data.fileStream.good = true ∧
          machine.data.lastSavedBlock = count := by
  induction count with
  | zero =>
      obtain ⟨history, machine, _, run, passes⟩ :=
        exists_reaches_of_converse .loopback
          [(.accepted .client (requestOf .writeRequest), {}),
            (.sent false, {})]
          (fun _ machine => decide (machine.state = .waitingForData ∧
            machine.tasks = [] ∧ machine.data.fileStream.good = true ∧
              machine.data.lastSavedBlock = 0))
          (by decide +kernel)
      exact ⟨machine, ⟨history, run⟩, of_decide_eq_true passes⟩
  | succ count ih =>
      obtain ⟨machine, reachable, waits, idle, good, saved⟩ :=
        ih (by omega)
      have next :=
        exists_next_block reachable waits idle good (by omega)
      rw [saved] at next
      exact next

private theorem succeeds_of_meets {history : List Step}
    (meets : ∀ step ∈ history,
      Step.Meets step fun _ environment => environment = {}) :
    ∀ step ∈ history, Step.writeSucceeds step = true := by
  rintro ⟨before, input, outputs, after⟩ member
  cases input with
  | fire row environment =>
      rw [Step.writeSucceeds, meets _ member row environment rfl]
      simp
  | _ => rfl

/-- The first block of an upload is accepted. -/
theorem first_block_accepted :
    ∃ machine history next, Reachable .loopback machine ∧
      Handles machine (.received machine.data.agreedRemoteEndpoint
        ⟨Packet.dataPacket 1 [7], by decide⟩) history next ∧
      AcceptsBlock machine ⟨Packet.dataPacket 1 [7], by decide⟩ history := by
  obtain ⟨machine, reachable, waits, idle, good, saved⟩ :=
    exists_saved 0 (by omega)
  obtain ⟨past, run⟩ := id reachable
  have follows : Follows machine ⟨Packet.dataPacket 1 [7], by decide⟩ :=
    ⟨waits, idle, by decide, by simp, by simp [saved]⟩
  obtain ⟨history, next, handles, meets⟩ :=
    run.wellFormed.exists_handles_received (by rw [waits]; rfl) idle
      machine.data.agreedRemoteEndpoint
        ⟨Packet.dataPacket 1 [7], by decide⟩ {}
  refine ⟨machine, history, next, reachable, handles,
    ((next_block_accepted_iff .loopback machine _ reachable follows).2 history
      next handles).mpr ⟨by omega, good, succeeds_of_meets meets⟩⟩

/-- After block 65535 the block with number 0 is ignored. -/
theorem block_zero_ignored :
    ∃ machine history next, Reachable .loopback machine ∧
      machine.data.lastSavedBlock = 65535 ∧
      machine.data.fileStream.good = true ∧
      Follows machine ⟨Packet.dataPacket 0 [7], by decide⟩ ∧
      Handles machine (.received machine.data.agreedRemoteEndpoint
        ⟨Packet.dataPacket 0 [7], by decide⟩) history next ∧
      (∀ step ∈ history, Step.writeSucceeds step = true) ∧
      ¬ AcceptsBlock machine ⟨Packet.dataPacket 0 [7], by decide⟩
        history := by
  obtain ⟨machine, reachable, waits, idle, good, saved⟩ :=
    exists_saved 65535 (by omega)
  obtain ⟨past, run⟩ := id reachable
  have follows : Follows machine ⟨Packet.dataPacket 0 [7], by decide⟩ :=
    ⟨waits, idle, by decide, by simp, by simp [saved]⟩
  obtain ⟨history, next, handles, meets⟩ :=
    run.wellFormed.exists_handles_received (by rw [waits]; rfl) idle
      machine.data.agreedRemoteEndpoint
        ⟨Packet.dataPacket 0 [7], by decide⟩ {}
  refine ⟨machine, history, next, reachable, saved, good, follows, handles,
    ?_, ?_⟩
  · exact succeeds_of_meets meets
  · rintro ⟨written, _⟩
    have ignored := follows.ignored (by omega) run.wellFormed handles
    simp [ignored.1] at written

end Examples

end MsmTftp
