import MsmTftp.SessionConversation
import MsmTftp.SessionHandler

/-!
# The roles of a session

From the acceptance of a request to the next `Reset` a session serves a read
or a write request.  A session that serves a read request never leaves the
read side of the joint table.  One that serves a write request crosses to the
read side exactly when it takes the row for old data, whose target is
`WaitingForAck`.
-/

namespace MsmTftp

open CellBuffer TransitionSystem

namespace Step

/-- `Fires` as a test. -/
def fires (step : Step) (action : Action) : Bool :=
  match step.input with
  | .fire row _ => decide (row.action = action)
  | _ => false

theorem fires_iff {step : Step} {action : Action} :
    step.Fires action ↔ step.fires action = true := by
  obtain ⟨before, input, outputs, after⟩ := step
  cases input <;> simp [Fires, fires]

end Step

/-- A request was accepted by the step `accept`, and no `Reset` has happened
in `rest`, the steps since then. -/
structure Serving (config : Config) (action : Action) (past : List Step)
    (accept : Step) (rest : List Step) (machine : Machine) : Prop where
  run : Reaches config (past ++ accept :: rest) machine
  accepts : accept.Fires action
  ongoing : ∀ step ∈ rest, ¬ step.Fires .reset

/-- The packet that awaits its ACK: the OACK or the last DATA packet. -/
def SessionData.Outstanding (data : SessionData) : Prop :=
  data.lastSentBlock = 0 ∧
      Packet.opCode data.outgoing = .optionAcknowledgment ∨
    1 ≤ data.lastSentBlock ∧
      ∃ payload, data.outgoing =
        Packet.dataPacket (UInt16.ofNat data.lastSentBlock) payload

/-- What holds while a read request is served. -/
def ReadRole (data : SessionData) : State → Prop
  | .readRequestReceived => True
  | .dataRead => data.hasError = false → data.Outstanding
  | .sendingData | .waitingForAck => data.Outstanding
  | .sendingError => Packet.opCode data.outgoing = .error
  | _ => False

/-- What holds while a write request is served, before a crossing. -/
def WriteRole (data : SessionData) : State → Prop
  | .writeRequestReceived | .dataWritten => True
  | .sendingAck | .waitingForData =>
      data.outgoing = Packet.ackPacket (UInt16.ofNat data.lastSavedBlock)
  | .sendingError => Packet.opCode data.outgoing = .error
  | _ => False

/-- The states of the read request table. -/
def State.readSide : State → Bool
  | readRequestReceived | dataRead | sendingData | waitingForAck => true
  | _ => false

/-- The states of the write request table. -/
def State.writeSide : State → Bool
  | writeRequestReceived | sendingAck | waitingForData | dataWritten => true
  | _ => false

/-- The states between the acceptance of a request and the next `Reset`. -/
def State.busy : State → Bool
  | accepting | resetted => false
  | _ => true

/-- The step stays off the write side: it sends no ACK and writes nothing. -/
def Step.KeepsReadRole (step : Step) : Prop :=
  step.after.state.writeSide = false ∧
    (∀ sent ∈ step.outputs.filterMap Effect.packet,
      Packet.opCode sent.1 ≠ .acknowledgment) ∧
    step.outputs.filterMap Effect.written = []

/-- The step stays off the read side: it sends no DATA and no OACK. -/
def Step.KeepsWriteRole (step : Step) : Prop :=
  step.after.state.readSide = false ∧
    ∀ sent ∈ step.outputs.filterMap Effect.packet,
      Packet.opCode sent.1 ≠ .data ∧
        Packet.opCode sent.1 ≠ .optionAcknowledgment

/-- In `WaitingForData`, a packet of a stranger or a DATA block that is not
new is about to be processed. -/
def Machine.Strays (machine : Machine) : Prop :=
  machine.state = .waitingForData ∧
    machine.tasks = [.process .packetReceived] ∧
      (machine.data.fromAgreedEndpoint = false ∨
        machine.data.hasDataReceived = true ∧
          machine.data.isOldData = true)

instance (machine : Machine) : Decidable machine.Strays :=
  inferInstanceAs (Decidable (_ ∧ _))

section Roles

variable {config : Config} {data : SessionData} {state source target : State}
  {event : Option EventKind} {action : Action} {environment : Environment}
  {happens : Option Event}

theorem ReadRole.start (completion : Completion) :
    ReadRole (completion.start data).1 state ↔ ReadRole data state := by
  cases completion <;> exact Iff.rfl

theorem WriteRole.start (completion : Completion) :
    WriteRole (completion.start data).1 state ↔ WriteRole data state := by
  cases completion <;> exact Iff.rfl

theorem outstanding_formDataPacket
    (noError : (formDataPacket environment data).hasError = false) :
    (formDataPacket environment data).Outstanding := by
  cases bad : (data.streamAfterRead environment).bad with
  | true =>
      rw [formDataPacket_of_bad bad] at noError
      simp [SessionData.hasError] at noError
  | false =>
      right
      refine ⟨?_, data.nextBlock environment, ?_⟩
      · rw [formDataPacket_of_not_bad bad]
        exact Nat.le_add_left 1 data.lastSentBlock
      · rw [outgoing_formDataPacket bad, formDataPacket_of_not_bad bad]

theorem outstanding_formOackPacket : (formOackPacket data).Outstanding :=
  .inl ⟨rfl, opCode_formOackPacket⟩

theorem ReadRole.fire (role : ReadRole data source)
    (firing : Firing data source event action target)
    (ongoing : action ≠ .reset) :
    ReadRole (action.run environment happens data).1 target := by
  cases firing with
  | firstBlock noError plain => exact outstanding_formDataPacket
  | announceOptions options => exact fun _ => outstanding_formOackPacket
  | refuseRead error =>
      exact opCode_formErrorPacketWith _
  | blockRead noError => exact role noError
  | readFailed error => exact opCode_formErrorPacketWith _
  | dataSent => exact role
  | resendData retry => exact role
  | notAck agreed other => exact opCode_formErrorPacketWith _
  | oldAck ignored => exact role
  | nextBlock agreed received current more => exact outstanding_formDataPacket
  | finish final => exact absurd rfl ongoing
  | giveUpRead exhausted => exact absurd rfl ongoing
  | errorSent => exact absurd rfl ongoing
  | _ => exact role.elim

/-- Rows other than `Reset` keep the write role, but for the row for old
data. -/
theorem WriteRole.fire (role : WriteRole data source)
    (firing : Firing data source event action target)
    (ongoing : action ≠ .reset) (stays : target ≠ .waitingForAck) :
    WriteRole (action.run environment happens data).1 target := by
  cases firing with
  | grantWrite noError => exact outgoing_formAckPacket
  | refuseWrite error => exact opCode_formErrorPacketWith _
  | ackSent => exact role
  | resendAck retry => exact role
  | notData agreed other => exact opCode_formErrorPacketWith _
  | newData agreed received new => trivial
  | dataSaved noError => exact outgoing_formAckPacket
  | saveFailed error => exact opCode_formErrorPacketWith _
  | oldData ignored => exact absurd rfl stays
  | giveUpWrite exhausted => exact absurd rfl ongoing
  | errorSent => exact absurd rfl ongoing
  | _ => exact role.elim

/-- The only row from the write side to `WaitingForAck` is the one for old
data. -/
theorem Firing.of_crossing
    (firing : Firing data source event action .waitingForAck)
    (role : WriteRole data source) :
    source = .waitingForData ∧ event = some .packetReceived ∧
      (data.fromAgreedEndpoint = false ∨
        data.hasDataReceived = true ∧ data.isOldData = true) := by
  cases firing with
  | oldData ignored => exact ⟨rfl, rfl, ignored⟩
  | dataSent => exact role.elim
  | oldAck ignored => exact role.elim

/-- The only row for a packet of a stranger or an old block. -/
theorem Firing.target_of_ignored
    (firing : Firing data .waitingForData (some .packetReceived) action target)
    (ignored : data.fromAgreedEndpoint = false ∨
      data.hasDataReceived = true ∧ data.isOldData = true) :
    target = .waitingForAck := by
  cases firing <;> simp_all

theorem ReadRole.writeSide (role : ReadRole data state) :
    state.writeSide = false := by
  cases state <;> first | rfl | exact role.elim

theorem WriteRole.readSide (role : WriteRole data state) :
    state.readSide = false := by
  cases state <;> first | rfl | exact role.elim

theorem ReadRole.opCode_ne (role : ReadRole data state)
    (sends : state.operation = some .send) :
    Packet.opCode data.outgoing ≠ .acknowledgment := by
  cases state with
  | sendingData =>
      rcases role with ⟨_, oack⟩ | ⟨_, payload, block⟩
      · rw [oack]
        decide
      · rw [block, Packet.opCode_dataPacket]
        decide
  | sendingError =>
      have error : Packet.opCode data.outgoing = .error := role
      rw [error]
      decide
  | sendingAck => exact role.elim
  | _ => simp [State.operation] at sends

theorem WriteRole.opCode_ne (role : WriteRole data state)
    (sends : state.operation = some .send) :
    Packet.opCode data.outgoing ≠ .data ∧
      Packet.opCode data.outgoing ≠ .optionAcknowledgment := by
  cases state with
  | sendingAck =>
      have ack : data.outgoing =
          Packet.ackPacket (UInt16.ofNat data.lastSavedBlock) := role
      rw [ack, Packet.opCode_ackPacket]
      decide
  | sendingError =>
      have error : Packet.opCode data.outgoing = .error := role
      rw [error]
      decide
  | sendingData => exact role.elim
  | _ => simp [State.operation] at sends

end Roles

section Steps

variable {config : Config} {machine next : Machine} {input : Input}
  {effects : List Effect}

theorem silent_of_not_fire (stepped : machine.step input = some (next, effects))
    (other : ∀ row environment, input ≠ .fire row environment) :
    next.state = machine.state ∧ effects.filterMap Effect.packet = [] ∧
      effects.filterMap Effect.written = [] := by
  cases stepCases stepped with
  | @complete completion settled idle started =>
      cases completion <;> exact ⟨rfl, rfl, rfl⟩
  | parse settled running => exact ⟨rfl, rfl, rfl⟩
  | reject settled running refused => exact ⟨rfl, rfl, rfl⟩
  | fire => exact absurd rfl (other _ _)

/-- A step from a state other than `Accepting` starts a handler or fires. -/
theorem Machine.WellFormed.complete_or_fire
    (wellFormed : machine.WellFormed config)
    (stepped : machine.step input = some (next, effects))
    (serving : machine.state ≠ .accepting) :
    (∃ completion, input = .complete completion) ∨
      ∃ row environment, input = .fire row environment := by
  cases input with
  | complete completion => exact .inl ⟨completion, rfl⟩
  | fire row environment => exact .inr ⟨row, environment, rfl⟩
  | parse => exact absurd (wellFormed.accepting_of_parse stepped) serving
  | reject => exact absurd (wellFormed.accepting_of_reject stepped) serving

theorem ReadRole.ne_accepting {data : SessionData} {state : State}
    (role : ReadRole data state) : state ≠ .accepting := by
  rintro rfl
  exact role.elim

theorem WriteRole.ne_accepting {data : SessionData} {state : State}
    (role : WriteRole data state) : state ≠ .accepting := by
  rintro rfl
  exact role.elim

theorem ReadRole.step (role : ReadRole machine.data machine.state)
    (wellFormed : machine.WellFormed config)
    (stepped : machine.step input = some (next, effects))
    (ongoing : ¬ Step.Fires ⟨machine, input, effects, next⟩ .reset) :
    ReadRole next.data next.state ∧
      Step.KeepsReadRole ⟨machine, input, effects, next⟩ := by
  rcases wellFormed.complete_or_fire stepped role.ne_accepting with
    ⟨completion, rfl⟩ | ⟨row, environment, rfl⟩
  · obtain ⟨_, packets, written⟩ := silent_of_not_fire stepped (by simp)
    cases stepCases stepped with
    | complete settled idle started =>
        exact ⟨(ReadRole.start completion).mpr role, role.writeSide,
          by simp [packets], written⟩
  · obtain ⟨event, exitEffects, cases⟩ := wellFormed.fireCases stepped
    have acted : ReadRole (row.action.run environment event machine.data).1
        row.target :=
      role.fire cases.firing fun resets =>
        ongoing ⟨row, environment, rfl, resets⟩
    have reads : row.action ≠ .writeData := by
      intro saves
      have firing := cases.firing
      rw [saves] at firing
      rw [firing.of_writeData.1] at role
      exact role.elim
    have packets := cases.packets
    have written := cases.written
    rw [cases.state_eq]
    refine ⟨?_, ?_, ?_, ?_⟩
    · rw [cases.data_eq acted.ne_accepting]
      exact acted
    · rw [cases.state_eq]
      exact acted.writeSide
    · simp only [packets]
      split
      · rename_i sends
        simpa using acted.opCode_ne sends
      · simp
    · simpa [reads] using written

theorem WriteRole.step (role : WriteRole machine.data machine.state)
    (wellFormed : machine.WellFormed config)
    (stepped : machine.step input = some (next, effects))
    (ongoing : ¬ Step.Fires ⟨machine, input, effects, next⟩ .reset)
    (stays : ¬ machine.Strays) :
    WriteRole next.data next.state ∧
      Step.KeepsWriteRole ⟨machine, input, effects, next⟩ := by
  rcases wellFormed.complete_or_fire stepped role.ne_accepting with
    ⟨completion, rfl⟩ | ⟨row, environment, rfl⟩
  · obtain ⟨_, packets, _⟩ := silent_of_not_fire stepped (by simp)
    cases stepCases stepped with
    | complete settled idle started =>
        exact ⟨(WriteRole.start completion).mpr role, role.readSide,
          by simp [packets]⟩
  · obtain ⟨event, exitEffects, cases⟩ := wellFormed.fireCases stepped
    have target : row.target ≠ .waitingForAck := by
      intro crosses
      have firing := cases.firing
      rw [crosses] at firing
      obtain ⟨waits, kind, ignored⟩ := firing.of_crossing role
      refine stays ⟨waits, ?_, ignored⟩
      rw [cases.running, Event.eq_packetReceived kind]
      rfl
    have acted : WriteRole (row.action.run environment event machine.data).1
        row.target :=
      role.fire cases.firing (fun resets =>
        ongoing ⟨row, environment, rfl, resets⟩) target
    have packets := cases.packets
    rw [cases.state_eq]
    refine ⟨?_, ?_, ?_⟩
    · rw [cases.data_eq acted.ne_accepting]
      exact acted
    · rw [cases.state_eq]
      exact acted.readSide
    · simp only [packets]
      split
      · rename_i sends
        simpa using acted.opCode_ne sends
      · simp

theorem Machine.Strays.crosses (strays : machine.Strays)
    (wellFormed : machine.WellFormed config)
    (stepped : machine.step input = some (next, effects)) :
    next.state = .waitingForAck := by
  obtain ⟨waits, running, ignored⟩ := strays
  rcases wellFormed.complete_or_fire stepped (by simp [waits]) with
    ⟨completion, rfl⟩ | ⟨row, environment, rfl⟩
  · cases stepCases stepped with
    | complete settled idle started => simp [running] at idle
  · obtain ⟨event, exitEffects, cases⟩ := wellFormed.fireCases stepped
    have firing := cases.firing
    rw [cases.event_eq running, waits] at firing
    rw [cases.state_eq]
    exact firing.target_of_ignored ignored

end Steps

section Busy

variable {config : Config} {machine next : Machine} {input : Input}
  {effects : List Effect}

theorem State.ne_accepting_of_busy {state : State}
    (busy : state.busy = true) : state ≠ .accepting := by
  rintro rfl
  simp [State.busy] at busy

theorem Firing.busy {data : SessionData} {source target : State}
    {event : Option EventKind} {action : Action}
    (firing : Firing data source event action target)
    (ongoing : action ≠ .reset) (busy : source.busy = true) :
    target.busy = true := by
  cases firing <;> simp_all [State.busy]

/-- A step of a transfer starts a handler of the data socket, or fires a row
that leads to a state of the transfer. -/
inductive BusyCases (machine : Machine) : Input → List Effect → Machine → Prop
  | complete {completion : Completion} (idle : machine.tasks = [])
      (uses : completion.operation ≠ .listenerReceive)
      (drives : machine.state.operation = some completion.operation) :
      BusyCases machine (.complete completion)
        (completion.start machine.data).2.2
        { machine with
          data := (completion.start machine.data).1
          tasks := (completion.start machine.data).2.1
          outstanding :=
            machine.outstanding.erase completion.operation }
  | fire {row : Row} {environment : Environment} {event : Option Event}
      {exitEffects effects : List Effect} {next : Machine}
      (cases : FireCases machine row environment event exitEffects effects
        next)
      (ongoing : row.action ≠ .reset) (busy : row.target.busy = true)
      (data_eq : next.data =
        (row.action.run environment event machine.data).1) :
      BusyCases machine (.fire row environment) effects next

theorem Machine.WellFormed.busyCases (wellFormed : machine.WellFormed config)
    (busy : machine.state.busy = true)
    (stepped : machine.step input = some (next, effects))
    (ongoing : ¬ Step.Fires ⟨machine, input, effects, next⟩ .reset) :
    BusyCases machine input effects next := by
  have serving := State.ne_accepting_of_busy busy
  rcases wellFormed.complete_or_fire stepped serving with
    ⟨completion, rfl⟩ | ⟨row, environment, rfl⟩
  · cases stepCases stepped with
    | complete settled idle started =>
        have drives := (wellFormed.drives idle started).1
        refine .complete idle (fun listens => serving ?_) drives
        rw [listens] at drives
        exact State.eq_accepting drives
  · obtain ⟨event, exitEffects, cases⟩ := wellFormed.fireCases stepped
    have resets : row.action ≠ .reset := fun resets =>
      ongoing ⟨row, environment, rfl, resets⟩
    have target := cases.firing.busy resets busy
    exact .fire cases resets target
      (cases.data_eq (State.ne_accepting_of_busy target))

theorem BusyCases.busy (cases : BusyCases machine input effects next)
    (busy : machine.state.busy = true) : next.state.busy = true := by
  cases cases with
  | complete idle uses drives => exact busy
  | fire cases ongoing target data_eq =>
      rw [cases.state_eq]
      exact target

/-- The packets of a step of a transfer are what is outgoing after it. -/
theorem BusyCases.packets (cases : BusyCases machine input effects next)
    {packet : Bytes} {receiver : Endpoint}
    (sent : (packet, receiver) ∈ effects.filterMap Effect.packet) :
    next.state.operation = some .send ∧ packet = next.data.outgoing := by
  cases cases with
  | @complete completion idle uses drives =>
      cases completion <;> simp [Completion.start, Effect.packet] at sent
  | fire cases ongoing busy data_eq =>
      rw [cases.packets] at sent
      split at sent
      · next sends =>
        rw [List.mem_singleton, Prod.mk.injEq] at sent
        rw [cases.state_eq, data_eq]
        exact ⟨sends, sent.1⟩
      · exact absurd sent List.not_mem_nil

/-- What holds at some point of a transfer, and is preserved by every step
that meets `condition`, holds from there on until the next `Reset`. -/
theorem busy_invariant {start finish : Machine} {history : List Step}
    (run : session.Run start history finish)
    (wellFormed : start.WellFormed config) (busy : start.state.busy = true)
    (ongoing : ∀ step ∈ history, ¬ Step.Fires step .reset)
    (condition : Step → Prop) (meets : ∀ step ∈ history, condition step)
    (Invariant : List Step → Machine → Prop) (initially : Invariant [] start)
    (preserved : ∀ past (machine : Machine) input effects next,
      machine.WellFormed config → machine.state.busy = true →
        Invariant past machine → BusyCases machine input effects next →
          condition ⟨machine, input, effects, next⟩ →
            Invariant (past ++ [⟨machine, input, effects, next⟩]) next) :
    finish.state.busy = true ∧ Invariant history finish := by
  have invariant : finish.WellFormed config ∧
      finish.state.busy = true ∧ Invariant history finish := by
    apply run.history_invariant
      (fun step => ¬ Step.Fires step .reset ∧ condition step)
      (fun step member => ⟨ongoing step member, meets step member⟩)
      (fun past machine => machine.WellFormed config ∧
        machine.state.busy = true ∧ Invariant past machine)
    · exact ⟨wellFormed, busy, initially⟩
    · rintro past step ⟨wellFormed, busy, holds⟩ admitted
        ⟨ongoing, condition⟩
      have cases := wellFormed.busyCases busy admitted ongoing
      exact ⟨wellFormed.step admitted, cases.busy busy,
        preserved past _ _ _ _ wellFormed busy holds cases condition⟩
  exact invariant.2

end Busy

section Transfers

variable {config : Config} {past rest : List Step} {accept : Step}
  {machine : Machine}

namespace Serving

variable {action : Action}

theorem split (serving : Serving config action past accept rest machine) :
    Reaches config past accept.before ∧
      accept.before.step accept.input = some (accept.after, accept.outputs) ∧
        session.Run accept.after rest machine :=
  System.run_split.mp serving.run

theorem wellFormed_before
    (serving : Serving config action past accept rest machine) :
    accept.before.WellFormed config :=
  serving.split.1.wellFormed

theorem wellFormed_after
    (serving : Serving config action past accept rest machine) :
    accept.after.WellFormed config :=
  serving.wellFormed_before.step serving.split.2.1

theorem before {before after : List Step} {step : Step}
    (serving : Serving config action past accept (before ++ step :: after)
      machine) :
    Serving config action past accept before step.before ∧
      session.Admits step := by
  obtain ⟨reached, accepted, continues⟩ := serving.split
  obtain ⟨run, admitted, _⟩ := System.run_split.mp continues
  exact ⟨⟨System.run_split.mpr ⟨reached, accepted, run⟩, serving.accepts,
    fun other member =>
      serving.ongoing other (List.mem_append_left _ member)⟩, admitted⟩

theorem extend {more : List Step} {next : Machine}
    (serving : Serving config action past accept rest machine)
    (run : session.Run machine more next)
    (ongoing : ∀ step ∈ more, ¬ Step.Fires step .reset) :
    Serving config action past accept (rest ++ more) next := by
  refine ⟨?_, serving.accepts, ?_⟩
  · have whole := System.run_append.mpr ⟨machine, serving.run, run⟩
    simpa [Reaches] using whole
  · intro step member
    rcases List.mem_append.mp member with earlier | later
    · exact serving.ongoing step earlier
    · exact ongoing step later

theorem wellFormed_of_mem
    (serving : Serving config action past accept rest machine) {step : Step}
    (member : step ∈ rest) :
    step.before.WellFormed config ∧ session.Admits step :=
  serving.split.2.2.transitions (Machine.WellFormed config)
    serving.wellFormed_after (fun _ before admitted => before.step admitted)
    member

theorem accepted (serving : Serving config action past accept rest machine)
    (serves : action = .initServeReadRequest ∨
      action = .initServeWriteRequest) :
    ∃ row environment request exitEffects,
      accept.input = .fire row environment ∧ row.action = action ∧
        accept.before.state = .accepting ∧
          (row.target = if action = .initServeReadRequest then
            .readRequestReceived else .writeRequestReceived) ∧
          FireCases accept.before row environment
            (some (.requestReceived request)) exitEffects accept.outputs
              accept.after := by
  obtain ⟨row, environment, taken, acts⟩ := serving.accepts
  have stepped := serving.split.2.1
  rw [taken] at stepped
  obtain ⟨event, exitEffects, cases⟩ :=
    serving.wellFormed_before.fireCases stepped
  have firing := cases.firing
  rw [acts] at firing
  obtain ⟨accepts, kind, target⟩ := firing.of_initServe serves
  obtain ⟨request, rfl⟩ := Event.eq_requestReceived kind
  exact ⟨row, environment, request, exitEffects, taken, acts, accepts, target,
    cases⟩

/-- The machine after the acceptance: the action ran on pristine data. -/
theorem start (serving : Serving config action past accept rest machine)
    (serves : action = .initServeReadRequest ∨
      action = .initServeWriteRequest) :
    ∃ environment request,
      accept.before.data.Pristine config ∧
      accept.after = Machine.entering
        (if action = .initServeReadRequest then .readRequestReceived
          else .writeRequestReceived)
        (action.run environment (some (.requestReceived request))
          accept.before.data).1 := by
  obtain ⟨row, environment, request, exitEffects, _, acts, accepts, target,
    cases⟩ := serving.accepted serves
  refine ⟨environment, request, serving.wellFormed_before.pristine accepts, ?_⟩
  rw [cases.next_eq, acts, target]

theorem counters_start
    (serving : Serving config action past accept rest machine)
    (serves : action = .initServeReadRequest ∨
      action = .initServeWriteRequest) :
    accept.after.data.lastSentBlock = 0 ∧
      accept.after.data.lastSavedBlock = 0 ∧
        accept.after.data.resendCount = 0 := by
  obtain ⟨environment, request, pristine, next_eq⟩ := serving.start serves
  rw [SessionData.Pristine] at pristine
  rw [next_eq]
  rcases serves with rfl | rfl
  · obtain ⟨_, _, _, _, _, _, _, _, frame⟩ := initServeReadRequest_frame
      environment accept.before.data request
    simp only [Action.run, if_true,
      entering_data (show State.readRequestReceived ≠ .accepting by simp)]
    rw [frame, pristine]
    exact ⟨rfl, rfl, rfl⟩
  · obtain ⟨_, _, frame⟩ := initServeWriteRequest_frame environment
      accept.before.data request
    simp only [Action.run, reduceCtorEq, if_false,
      entering_data (show State.writeRequestReceived ≠ .accepting by simp)]
    rw [frame, pristine]
    exact ⟨rfl, rfl, rfl⟩

theorem busy_after (serving : Serving config action past accept rest machine)
    (serves : action = .initServeReadRequest ∨
      action = .initServeWriteRequest) :
    accept.after.state.busy = true := by
  obtain ⟨_, _, _, next_eq⟩ := serving.start serves
  rw [next_eq]
  split <;> rfl

/-- What holds when the request is accepted, and is preserved by every step
that meets `condition`, holds throughout the transfer. -/
theorem history_invariant
    (serving : Serving config action past accept rest machine)
    (serves : action = .initServeReadRequest ∨
      action = .initServeWriteRequest)
    (condition : Step → Prop) (meets : ∀ step ∈ rest, condition step)
    (Invariant : List Step → Machine → Prop)
    (initially : Invariant [] accept.after)
    (preserved : ∀ history (machine : Machine) input effects next,
      machine.WellFormed config → machine.state.busy = true →
        Invariant history machine → BusyCases machine input effects next →
          condition ⟨machine, input, effects, next⟩ →
            Invariant (history ++ [⟨machine, input, effects, next⟩]) next) :
    Invariant rest machine :=
  (busy_invariant serving.split.2.2 serving.wellFormed_after
    (serving.busy_after serves) serving.ongoing condition meets Invariant
    initially preserved).2

theorem busy (serving : Serving config action past accept rest machine)
    (serves : action = .initServeReadRequest ∨
      action = .initServeWriteRequest) : machine.state.busy = true :=
  (busy_invariant serving.split.2.2 serving.wellFormed_after
    (serving.busy_after serves) serving.ongoing (fun _ => True)
    (fun _ _ => trivial) (fun _ _ => True) trivial
    fun _ _ _ _ _ _ _ _ _ _ => trivial).1

theorem busyCases {before after : List Step} {step : Step}
    (serving : Serving config action past accept (before ++ step :: after)
      machine)
    (serves : action = .initServeReadRequest ∨
      action = .initServeWriteRequest) :
    step.before.state.busy = true ∧
      BusyCases step.before step.input step.outputs step.after := by
  obtain ⟨earlier, admitted⟩ := serving.before
  have busy := earlier.busy serves
  have wellFormed : step.before.WellFormed config := earlier.run.wellFormed
  have ongoing := serving.ongoing step (by simp)
  exact ⟨busy, wellFormed.busyCases busy admitted ongoing⟩

/-- What holds after a step of a transfer, and is preserved by the steps that
follow, holds from there on. -/
theorem later_invariant {before after : List Step} {step : Step}
    (serving : Serving config action past accept (before ++ step :: after)
      machine)
    (serves : action = .initServeReadRequest ∨
      action = .initServeWriteRequest)
    (Invariant : List Step → Machine → Prop)
    (initially : Invariant [] step.after)
    (preserved : ∀ history (machine : Machine) input effects next,
      machine.state.busy = true → Invariant history machine →
        BusyCases machine input effects next →
          Invariant (history ++ [⟨machine, input, effects, next⟩]) next) :
    Invariant after machine := by
  obtain ⟨earlier, admitted⟩ := serving.before
  obtain ⟨_, _, continues⟩ := System.run_split.mp serving.split.2.2
  obtain ⟨busy, cases⟩ := serving.busyCases serves
  have wellFormed : step.before.WellFormed config := earlier.run.wellFormed
  apply (busy_invariant continues (wellFormed.step admitted)
    (cases.busy busy) _ (fun _ => True) (fun _ _ => trivial) Invariant
    initially _).2
  · intro other member
    exact serving.ongoing other (by simp [member])
  · intro history machine input effects next _ busy holds cases _
    exact preserved history machine input effects next busy holds cases

end Serving

theorem Serving.readRole
    (serving : Serving config .initServeReadRequest past accept rest machine) :
    ReadRole machine.data machine.state ∧
      ∀ step ∈ accept :: rest, Step.KeepsReadRole step := by
  obtain ⟨row, environment, request, exitEffects, _, action, _, target,
    cases⟩ := serving.accepted (.inl rfl)
  have packets := cases.packets
  have written := cases.written
  have entered : accept.after.state = .readRequestReceived := by
    rw [cases.state_eq]
    exact target
  have accepted : Step.KeepsReadRole accept := by
    refine ⟨by rw [entered]; rfl, ?_, ?_⟩
    · simp [packets, target, State.operation]
    · simp [written, action]
  have invariant : machine.WellFormed config ∧
      ReadRole machine.data machine.state ∧
        ∀ step ∈ rest, Step.KeepsReadRole step := by
    apply serving.split.2.2.history_invariant
      (fun step => ¬ Step.Fires step .reset) serving.ongoing
      (fun history machine => machine.WellFormed config ∧
        ReadRole machine.data machine.state ∧
          ∀ step ∈ history, Step.KeepsReadRole step)
    · exact ⟨serving.wellFormed_after, by rw [entered]; trivial, by simp⟩
    · rintro past step ⟨wellFormed, role, kept⟩ admitted ongoing
      obtain ⟨next, keeps⟩ := role.step wellFormed admitted ongoing
      refine ⟨wellFormed.step admitted, next, ?_⟩
      simpa [or_imp, forall_and] using ⟨kept, keeps⟩
  exact ⟨invariant.2.1, List.forall_mem_cons.mpr ⟨accepted, invariant.2.2⟩⟩

theorem Serving.writeRole
    (serving : Serving config .initServeWriteRequest past accept rest machine)
    (stays : ∀ step ∈ rest, ¬ Machine.Strays (Transition.before step)) :
    WriteRole machine.data machine.state ∧
      ∀ step ∈ accept :: rest, Step.KeepsWriteRole step := by
  obtain ⟨row, environment, request, exitEffects, _, _, _, target, cases⟩ :=
    serving.accepted (.inr rfl)
  have packets := cases.packets
  have entered : accept.after.state = .writeRequestReceived := by
    rw [cases.state_eq]
    exact target
  have accepted : Step.KeepsWriteRole accept := by
    refine ⟨by rw [entered]; rfl, ?_⟩
    simp [packets, target, State.operation]
  have invariant : machine.WellFormed config ∧
      WriteRole machine.data machine.state ∧
        ∀ step ∈ rest, Step.KeepsWriteRole step := by
    apply serving.split.2.2.history_invariant
      (fun step => ¬ Step.Fires step .reset ∧ ¬ Machine.Strays step.before)
      (fun step member => ⟨serving.ongoing step member, stays step member⟩)
      (fun history machine => machine.WellFormed config ∧
        WriteRole machine.data machine.state ∧
          ∀ step ∈ history, Step.KeepsWriteRole step)
    · exact ⟨serving.wellFormed_after, by rw [entered]; trivial, by simp⟩
    · rintro past step ⟨wellFormed, role, kept⟩ admitted ⟨ongoing, stays⟩
      obtain ⟨next, keeps⟩ := role.step wellFormed admitted ongoing stays
      refine ⟨wellFormed.step admitted, next, ?_⟩
      simpa [or_imp, forall_and] using ⟨kept, keeps⟩
  exact ⟨invariant.2.1, List.forall_mem_cons.mpr ⟨accepted, invariant.2.2⟩⟩

end Transfers

/-- Read sessions keep their role, and write sessions keep theirs exactly as
long as they do not process a packet of a stranger or an old block. -/
theorem roles_separate (config : Config) (past : List Step) (accept : Step)
    (rest : List Step) (machine : Machine) :
    (Serving config .initServeReadRequest past accept rest machine →
      ∀ step ∈ accept :: rest, Step.KeepsReadRole step) ∧
    (Serving config .initServeWriteRequest past accept rest machine →
      ((∀ step ∈ accept :: rest, Step.KeepsWriteRole step) ↔
        ∀ step ∈ rest, ¬ Machine.Strays (Transition.before step))) := by
  refine ⟨fun serving => serving.readRole.2, fun serving => ⟨?_, ?_⟩⟩
  · intro keeps step member strays
    obtain ⟨wellFormed, admitted⟩ := serving.wellFormed_of_mem member
    have crosses := strays.crosses wellFormed admitted
    have stays := (keeps step (List.mem_cons_of_mem accept member)).1
    rw [crosses] at stays
    simp [State.readSide] at stays
  · exact fun stays => (serving.writeRole stays).2

section Examples

/-- A check of a transfer the listener's first handler accepts. -/
def checkTransfer (action : Action)
    (check : Step → List Step → Machine → Bool) : List Step → Machine → Bool
  | _ :: _ :: accept :: rest, machine =>
      accept.fires action && rest.all (fun step => !step.fires .reset) &&
        check accept rest machine
  | _, _ => false

theorem exists_serving_of_check {action : Action}
    {check : Step → List Step → Machine → Bool} {history : List Step}
    {machine : Machine} (run : Reaches .loopback history machine)
    (passes : checkTransfer action check history machine = true) :
    ∃ past accept rest,
      Serving .loopback action past accept rest machine ∧
        check accept rest machine = true := by
  match history, run, passes with
  | first :: second :: accept :: rest, run, passes =>
      simp only [checkTransfer, Bool.and_eq_true, List.all_eq_true,
        Bool.not_eq_true'] at passes
      obtain ⟨⟨accepts, ongoing⟩, passes⟩ := passes
      refine ⟨[first, second], accept, rest,
        ⟨run, Step.fires_iff.mpr accepts, ?_⟩, passes⟩
      intro step member resets
      have quiet := ongoing step member
      rw [Step.fires_iff.mp resets] at quiet
      simp at quiet

theorem exists_serving_of_converse (action : Action)
    (answers : List (Completion × Environment))
    (check : Step → List Step → Machine → Bool)
    (checked : ((Machine.started .loopback).converse answers).map
      (fun result => checkTransfer action check result.1 result.2) =
        some true) :
    ∃ past accept rest machine,
      Serving .loopback action past accept rest machine ∧
        check accept rest machine = true := by
  obtain ⟨history, machine, _, run, passes⟩ :=
    exists_reaches_of_converse .loopback answers (checkTransfer action check)
      checked
  obtain ⟨past, accept, rest, serving⟩ := exists_serving_of_check run passes
  exact ⟨past, accept, rest, machine, serving⟩

theorem exists_accepted_of_converse (action : Action)
    (answers : List (Completion × Environment)) (check : Step → Bool)
    (checked : ((Machine.started .loopback).converse answers).map
      (fun result => (List.range result.1.length).any fun index =>
        result.1[index]?.any fun step =>
          checkTransfer action (fun accept rest _ =>
            rest.isEmpty && check accept) (result.1.take index) step.before) =
        some true) :
    ∃ past accept, Serving .loopback action past accept [] accept.after ∧
      check accept = true := by
  obtain ⟨history, step, run, _, passes⟩ :=
    exists_step_of_converse .loopback answers
      (fun history step => checkTransfer action
        (fun accept rest _ => rest.isEmpty && check accept) history
          step.before) checked
  obtain ⟨past, accept, rest, serving, passes⟩ :=
    exists_serving_of_check run passes
  simp only [Bool.and_eq_true, List.isEmpty_iff] at passes
  obtain ⟨rfl, passes⟩ := passes
  have same := System.run_nil.mp serving.split.2.2
  rw [← same] at serving
  exact ⟨past, accept, serving, passes⟩

/-- A download and an upload of one block that keep their roles. -/
theorem roles_kept :
    (∃ past accept rest machine,
      Serving .loopback .initServeReadRequest past accept rest machine ∧
        machine.state = .waitingForAck ∧
          ∀ step ∈ accept :: rest, Step.KeepsReadRole step) ∧
    (∃ past accept rest machine,
      Serving .loopback .initServeWriteRequest past accept rest machine ∧
        machine.state = .waitingForData ∧
          ∀ step ∈ accept :: rest, Step.KeepsWriteRole step) := by
  constructor
  · obtain ⟨past, accept, rest, machine, serving, waits⟩ :=
      exists_serving_of_converse .initServeReadRequest
        [(.accepted .client (requestOf .readRequest), {}), (.sent false, {})]
        (fun _ _ machine => decide (machine.state = .waitingForAck))
        (by decide +kernel)
    exact ⟨past, accept, rest, machine, serving, of_decide_eq_true waits,
      (roles_separate .loopback past accept rest machine).1 serving⟩
  · obtain ⟨past, accept, rest, machine, serving, passes⟩ :=
      exists_serving_of_converse .initServeWriteRequest
        [(.accepted .client (requestOf .writeRequest), {}),
          (.sent false, {}),
          (.received .client ⟨Packet.dataPacket 1 [7], by decide⟩, {}),
          (.sent false, {})]
        (fun _ rest machine => decide (machine.state = .waitingForData) &&
          rest.all fun step => decide (¬ Machine.Strays step.before))
        (by decide +kernel)
    simp only [Bool.and_eq_true, decide_eq_true_eq, List.all_eq_true]
      at passes
    exact ⟨past, accept, rest, machine, serving, passes.1,
      ((roles_separate .loopback past accept rest machine).2 serving).mpr
        passes.2⟩

/-- An upload whose first block is repeated, and whose client then sends an
ACK, crosses to the read side and sends a DATA packet. -/
theorem upload_crosses :
    ∃ past accept rest machine,
      Serving .loopback .initServeWriteRequest past accept rest machine ∧
        machine.state = .sendingData ∧
          ∃ step ∈ rest, ∃ sent ∈ step.outputs.filterMap Effect.packet,
            Packet.opCode sent.1 = .data := by
  obtain ⟨past, accept, rest, machine, serving, passes⟩ :=
    exists_serving_of_converse .initServeWriteRequest
      [(.accepted .client (requestOf .writeRequest), {}), (.sent false, {}),
        (.received .client ⟨Packet.dataPacket 1 [7], by decide⟩, {}),
        (.sent false, {}),
        (.received .client ⟨Packet.dataPacket 1 [7], by decide⟩, {}),
        (.received .client ⟨Packet.ackPacket 0, by decide⟩, {})]
      (fun _ rest machine => decide (machine.state = .sendingData) &&
        rest.any fun step => (step.outputs.filterMap Effect.packet).any
          fun sent => decide (Packet.opCode sent.1 = .data))
      (by decide +kernel)
  simp only [Bool.and_eq_true, decide_eq_true_eq, List.any_eq_true] at passes
  obtain ⟨sends, step, member, sent, packet, block⟩ := passes
  exact ⟨past, accept, rest, machine, serving, sends, step, member, sent,
    packet, block⟩

end Examples

end MsmTftp
