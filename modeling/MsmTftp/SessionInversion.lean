import MsmTftp.SessionMachine

/-!
# What one step of a session can do

`Firing` lists the rows of the joint table with their guards unfolded, so that
a case analysis on it says everything an event or a completion event can do in
a state.  `StepCases` is the corresponding inversion of the step function.
Invariants are proved from these two and never unfold the tables again.
-/

namespace MsmTftp

open CellBuffer TransitionSystem

/-- A row of the joint table whose guard holds of the data, by source, event,
action and target. -/
inductive Firing (data : SessionData) :
    State → Option EventKind → Action → State → Prop
  | errorSent :
      Firing data .sendingError (some .packetSent) .reset .resetted
  | restart : Firing data .resetted none .none .accepting
  | acceptingFailed (error : data.hasError = true) :
      Firing data .accepting (some .acceptingFailed) .reset .resetted
  | acceptWrite (noError : data.hasError = false)
      (opcode : data.hasWriteRequestReceived = true) :
      Firing data .accepting (some .requestReceived) .initServeWriteRequest
        .writeRequestReceived
  | grantWrite (noError : data.hasError = false) :
      Firing data .writeRequestReceived none .formAckPacket .sendingAck
  | refuseWrite (error : data.hasError = true) :
      Firing data .writeRequestReceived none .formErrorPacket .sendingError
  | ackSent : Firing data .sendingAck (some .packetSent) .none .waitingForData
  | resendAck (retry : data.canRetry = true) :
      Firing data .waitingForData (some .timedOut) .timeOut .sendingAck
  | giveUpWrite (exhausted : data.canRetry = false) :
      Firing data .waitingForData (some .timedOut) .reset .resetted
  | notData (agreed : data.fromAgreedEndpoint = true)
      (other : data.hasDataReceived = false) :
      Firing data .waitingForData (some .packetReceived)
        .formProtocolErrorPacket .sendingError
  | oldData (ignored : data.fromAgreedEndpoint = false ∨
        data.hasDataReceived = true ∧ data.isOldData = true) :
      Firing data .waitingForData (some .packetReceived) .none .waitingForAck
  | newData (agreed : data.fromAgreedEndpoint = true)
      (received : data.hasDataReceived = true)
      (new : data.isOldData = false) :
      Firing data .waitingForData (some .packetReceived) .writeData
        .dataWritten
  | dataSaved (noError : data.hasError = false) :
      Firing data .dataWritten none .formAckPacket .sendingAck
  | saveFailed (error : data.hasError = true) :
      Firing data .dataWritten none .formErrorPacket .sendingError
  | acceptRead (noError : data.hasError = false)
      (opcode : data.hasReadRequestReceived = true) :
      Firing data .accepting (some .requestReceived) .initServeReadRequest
        .readRequestReceived
  | firstBlock (noError : data.hasError = false)
      (plain : data.hasOptions = false) :
      Firing data .readRequestReceived none .formDataPacket .dataRead
  | announceOptions (options : data.hasOptions = true) :
      Firing data .readRequestReceived none .formOackPacket .dataRead
  | refuseRead (error : data.hasError = true) :
      Firing data .readRequestReceived none .formErrorPacket .sendingError
  | blockRead (noError : data.hasError = false) :
      Firing data .dataRead none .resetTimeOut .sendingData
  | readFailed (error : data.hasError = true) :
      Firing data .dataRead none .formErrorPacket .sendingError
  | dataSent : Firing data .sendingData (some .packetSent) .none .waitingForAck
  | resendData (retry : data.canRetry = true) :
      Firing data .waitingForAck (some .timedOut) .timeOut .sendingData
  | giveUpRead (exhausted : data.canRetry = false) :
      Firing data .waitingForAck (some .timedOut) .reset .resetted
  | notAck (agreed : data.fromAgreedEndpoint = true)
      (other : data.hasAckReceived = false) :
      Firing data .waitingForAck (some .packetReceived)
        .formProtocolErrorPacket .sendingError
  | oldAck (ignored : data.fromAgreedEndpoint = false ∨
        data.hasAckReceived = true ∧ data.isOldAck = true) :
      Firing data .waitingForAck (some .packetReceived) .none .waitingForAck
  | nextBlock (agreed : data.fromAgreedEndpoint = true)
      (received : data.hasAckReceived = true)
      (current : data.isOldAck = false)
      (more : data.hasMoreToSend = true) :
      Firing data .waitingForAck (some .packetReceived) .formDataPacket
        .dataRead
  | finish (final : data.hasErrReceived = true ∨
        data.fromAgreedEndpoint = true ∧ data.hasAckReceived = true ∧
          data.isOldAck = false ∧ data.hasMoreToSend = false) :
      Firing data .waitingForAck (some .packetReceived) .reset .resetted

theorem firing_of_mem {data : SessionData} :
    ∀ row ∈ jointTransitionTable, row.guard.eval data = true →
      Firing data row.source row.event row.action row.target := by
  simp only [jointTransitionTable, commonTransitionTable,
    writeRequestTransitionTable, readRequestTransitionTable,
    List.cons_append, List.nil_append, List.forall_mem_cons,
    Guard.hasFinalAckReceived, Guard.hasIntermediateAckReceived,
    Guard.hasOldAckReceived, Guard.and, Guard.eval, Bool.and_true,
    Bool.and_eq_true, Bool.or_eq_true, Bool.not_eq_true',
    Bool.or_eq_false_iff]
  exact ⟨fun _ => .errorSent, fun _ => .restart, .acceptingFailed,
    fun holds => .acceptWrite holds.1 holds.2, .grantWrite, .refuseWrite,
    fun _ => .ackSent, .resendAck, .giveUpWrite,
    fun holds => .notData holds.1 holds.2, .oldData,
    fun holds => .newData holds.1 holds.2.1 holds.2.2, .dataSaved,
    .saveFailed, fun holds => .acceptRead holds.1 holds.2,
    fun holds => .firstBlock holds.1 holds.2, .announceOptions, .refuseRead,
    .blockRead, .readFailed, fun _ => .dataSent, .resendData, .giveUpRead,
    fun holds => .notAck holds.1 holds.2, .oldAck,
    fun holds => .nextBlock holds.1 holds.2.1 holds.2.2.1 holds.2.2.2,
    .finish, by simp⟩

theorem Firing.exists_row {data : SessionData} {source target : State}
    {event : Option EventKind} {action : Action}
    (firing : Firing data source event action target) :
    ∃ row ∈ enabledRows source event data,
      row.action = action ∧ row.target = target := by
  have found : ∃ row,
      jointTransitionTable.find? (fun row =>
        decide (row.source = source ∧ row.event = event ∧
          row.action = action ∧ row.target = target)) = some row ∧
        row.guard.eval data = true := by
    cases firing <;> refine ⟨_, rfl, ?_⟩ <;>
      simp_all [Guard.hasFinalAckReceived, Guard.hasIntermediateAckReceived,
        Guard.hasOldAckReceived, Guard.and, Guard.eval]
  obtain ⟨row, search, holds⟩ := found
  have matched := List.find?_some search
  simp only [decide_eq_true_eq] at matched
  obtain ⟨sources, events, actions, targets⟩ := matched
  exact ⟨row, mem_enabledRows.mpr
    ⟨List.mem_of_find?_eq_some search, sources, events, holds⟩,
    actions, targets⟩

theorem firing_of_enabled {data : SessionData} {source : State}
    {event : Option EventKind} {row : Row}
    (enabled : row ∈ enabledRows source event data) :
    Firing data source event row.action row.target := by
  obtain ⟨member, rfl, rfl, holds⟩ := mem_enabledRows.mp enabled
  exact firing_of_mem row member holds

theorem enabledRows_injective {data other : SessionData} {source : State}
    {event : Option EventKind} {first second : Row}
    (enabled : first ∈ enabledRows source event data)
    (also : second ∈ enabledRows source event other)
    (actions : first.action = second.action)
    (targets : first.target = second.target) : first = second := by
  have keys : ∀ first ∈ jointTransitionTable,
      ∀ second ∈ jointTransitionTable, first.source = second.source →
        first.event = second.event → first.action = second.action →
          first.target = second.target → first = second := by
    decide +kernel
  obtain ⟨member, sources, events, _⟩ := mem_enabledRows.mp enabled
  obtain ⟨memberToo, sourcesToo, eventsToo, _⟩ := mem_enabledRows.mp also
  exact keys first member second memberToo (sources.trans sourcesToo.symm)
    (events.trans eventsToo.symm) actions targets

/-- The operation that drives a state; the states without one are left by
completion rows. -/
def State.operation : State → Option Operation
  | accepting => some .listenerReceive
  | sendingAck | sendingData | sendingError => some .send
  | waitingForData | waitingForAck => some .receive
  | writeRequestReceived | dataWritten | readRequestReceived | dataRead
  | resetted => none

theorem State.eq_accepting {state : State}
    (drives : state.operation = some .listenerReceive) :
    state = .accepting := by
  cases state <;> simp_all [State.operation]

theorem exists_completion_firing (data : SessionData) {state : State}
    (passing : state.operation = none) :
    ∃ action target, Firing data state none action target := by
  cases state with
  | resetted => exact ⟨_, _, .restart⟩
  | writeRequestReceived =>
      cases error : data.hasError with
      | true => exact ⟨_, _, .refuseWrite error⟩
      | false => exact ⟨_, _, .grantWrite error⟩
  | dataWritten =>
      cases error : data.hasError with
      | true => exact ⟨_, _, .saveFailed error⟩
      | false => exact ⟨_, _, .dataSaved error⟩
  | readRequestReceived =>
      cases error : data.hasError with
      | true => exact ⟨_, _, .refuseRead error⟩
      | false =>
          cases options : data.hasOptions with
          | true => exact ⟨_, _, .announceOptions options⟩
          | false => exact ⟨_, _, .firstBlock error options⟩
  | dataRead =>
      cases error : data.hasError with
      | true => exact ⟨_, _, .readFailed error⟩
      | false => exact ⟨_, _, .blockRead error⟩
  | _ => simp [State.operation] at passing

/-- Completion rows only leave states that wait for nothing. -/
theorem Firing.operation_eq_none {data : SessionData} {source target : State}
    {action : Action} (firing : Firing data source none action target) :
    source.operation = none := by
  cases firing <;> rfl

theorem settled_iff {machine : Machine} :
    machine.settled = true ↔ machine.state.operation ≠ none := by
  rw [Machine.settled, List.isEmpty_iff]
  constructor
  · intro empty passing
    obtain ⟨action, target, firing⟩ :=
      exists_completion_firing machine.data passing
    obtain ⟨row, enabled, _⟩ := firing.exists_row
    simp [empty] at enabled
  · intro waits
    apply List.eq_nil_iff_forall_not_mem.mpr
    intro row enabled
    exact waits (firing_of_enabled enabled).operation_eq_none

theorem returned_iff {machine : Machine} :
    machine.returned = true ↔
      machine.state.operation ≠ none ∧ machine.tasks = [] := by
  simp [Machine.returned, settled_iff]

theorem exists_sent_firing (data : SessionData) {state : State}
    (sending : state.operation = some .send) :
    ∃ action target, Firing data state (some .packetSent) action target := by
  cases state with
  | sendingAck => exact ⟨_, _, .ackSent⟩
  | sendingData => exact ⟨_, _, .dataSent⟩
  | sendingError => exact ⟨_, _, .errorSent⟩
  | _ => simp [State.operation] at sending

theorem exists_timedOut_firing (data : SessionData) {state : State}
    (receiving : state.operation = some .receive) :
    ∃ action target, Firing data state (some .timedOut) action target := by
  cases state with
  | waitingForData =>
      cases retry : data.canRetry with
      | true => exact ⟨_, _, .resendAck retry⟩
      | false => exact ⟨_, _, .giveUpWrite retry⟩
  | waitingForAck =>
      cases retry : data.canRetry with
      | true => exact ⟨_, _, .resendData retry⟩
      | false => exact ⟨_, _, .giveUpRead retry⟩
  | _ => simp [State.operation] at receiving

theorem exists_received_firing (data : SessionData) {state : State}
    (receiving : state.operation = some .receive) :
    ∃ action target,
      Firing data state (some .packetReceived) action target := by
  cases state with
  | waitingForData =>
      cases agreed : data.fromAgreedEndpoint with
      | false => exact ⟨_, _, .oldData (.inl agreed)⟩
      | true =>
          cases received : data.hasDataReceived with
          | false => exact ⟨_, _, .notData agreed received⟩
          | true =>
              cases old : data.isOldData with
              | true => exact ⟨_, _, .oldData (.inr ⟨received, old⟩)⟩
              | false => exact ⟨_, _, .newData agreed received old⟩
  | waitingForAck =>
      cases agreed : data.fromAgreedEndpoint with
      | false => exact ⟨_, _, .oldAck (.inl agreed)⟩
      | true =>
          cases received : data.hasAckReceived with
          | false => exact ⟨_, _, .notAck agreed received⟩
          | true =>
              cases old : data.isOldAck with
              | true => exact ⟨_, _, .oldAck (.inr ⟨received, old⟩)⟩
              | false =>
                  cases more : data.hasMoreToSend with
                  | true => exact ⟨_, _, .nextBlock agreed received old more⟩
                  | false =>
                      exact ⟨_, _,
                        .finish (.inr ⟨agreed, received, old, more⟩)⟩
  | _ => simp [State.operation] at receiving

/-- The inversion of the step function. -/
inductive StepCases (machine : Machine) :
    Input → List Effect → Machine → Prop
  | complete {completion : Completion} (settled : machine.settled = true)
      (idle : machine.tasks = [])
      (started : completion.operation ∈ machine.outstanding) :
      StepCases machine (.complete completion)
        (completion.start machine.data).2.2
        { machine with
          data := (completion.start machine.data).1
          tasks := (completion.start machine.data).2.1
          outstanding :=
            machine.outstanding.erase completion.operation }
  | parse {bytesReceived : Nat} {tasks : List Task}
      (settled : machine.settled = true)
      (running : machine.tasks = .parse bytesReceived :: tasks) :
      StepCases machine .parse []
        { machine with
          tasks := .process (.requestReceived
            (parseRequest machine.data.receiveBuffer bytesReceived)) ::
              tasks }
  | fire {row : Row} {environment : Environment} {event : Option Event}
      {tasks : List Task} {exitEffects : List Effect}
      (settled : event ≠ none → machine.settled = true)
      (running : machine.tasks = event.toList.map Task.process ++ tasks)
      (firing : Firing machine.data machine.state (event.map Event.kind)
        row.action row.target)
      (exits : machine.state.exit machine.data = some exitEffects)
      {acted entered : Outcome}
      (acts : acted = row.action.run environment event machine.data)
      (enters : entered = row.target.entry acted.1)
      {effects : List Effect}
      (allEffects : effects = exitEffects ++ acted.2 ++ entered.2)
      (enabled : row ∈ enabledRows machine.state (event.map Event.kind)
        machine.data) :
      StepCases machine (.fire row environment) effects
        { state := row.target
          data := entered.1
          outstanding :=
            machine.outstanding ++ effects.filterMap Effect.operation
          tasks }
  | reject {event : Event} {tasks : List Task}
      (settled : machine.settled = true)
      (running : machine.tasks = .process event :: tasks)
      (refused : ∀ action target, ¬ Firing machine.data machine.state
        (some event.kind) action target) :
      StepCases machine .reject [] { machine with tasks }

private theorem fire_cases {machine next : Machine} {row : Row}
    {environment : Environment} (event : Option Event) {tasks : List Task}
    {effects : List Effect}
    (settled : event ≠ none → machine.settled = true)
    (running : machine.tasks = event.toList.map Task.process ++ tasks)
    (enabled : row ∈ enabledRows machine.state (event.map Event.kind)
      machine.data)
    (fired : machine.fire row environment event tasks =
      some (next, effects)) :
    StepCases machine (.fire row environment) effects next := by
  have firing := firing_of_enabled enabled
  obtain ⟨_, sources, _⟩ := mem_enabledRows.mp enabled
  simp only [Machine.fire, Row.fire, sources, Option.map_map,
    Option.map_eq_some_iff, Function.comp_apply, Prod.mk.injEq] at fired
  obtain ⟨exitEffects, exits, rfl, rfl⟩ := fired
  exact .fire settled running firing exits rfl rfl rfl enabled

theorem stepCases {machine next : Machine} {input : Input}
    {effects : List Effect}
    (stepped : machine.step input = some (next, effects)) :
    StepCases machine input effects next := by
  cases input with
  | complete completion =>
      simp only [Machine.step, Option.ite_none_right_eq_some,
        Option.some.injEq, Prod.mk.injEq] at stepped
      obtain ⟨⟨returned, started⟩, rfl, rfl⟩ := stepped
      obtain ⟨settled, idle⟩ := returned_iff.mp returned
      exact .complete (settled_iff.mpr settled) idle started
  | parse =>
      simp only [Machine.step] at stepped
      split at stepped
      · rename_i bytesReceived tasks running
        simp only [Option.ite_none_right_eq_some, Option.some.injEq,
          Prod.mk.injEq] at stepped
        obtain ⟨settled, rfl, rfl⟩ := stepped
        exact .parse settled running
      · simp at stepped
  | fire row environment =>
      simp only [Machine.step] at stepped
      split at stepped
      · rename_i completes
        simp only [Option.ite_none_right_eq_some] at stepped
        exact fire_cases none (by simp) (by simp) stepped.1 stepped.2
      · rename_i kind event tasks happens running
        simp only [Option.ite_none_right_eq_some] at stepped
        obtain ⟨⟨settled, rfl, enabled⟩, fired⟩ := stepped
        exact fire_cases (some event) (fun _ => settled)
          (by simpa using running) enabled fired
      · simp at stepped
  | reject =>
      simp only [Machine.step] at stepped
      split at stepped
      · rename_i event tasks running
        simp only [Option.ite_none_right_eq_some, Option.some.injEq,
          Prod.mk.injEq] at stepped
        obtain ⟨⟨settled, refused⟩, rfl, rfl⟩ := stepped
        refine .reject settled running fun action target firing => ?_
        obtain ⟨row, enabled, _⟩ := firing.exists_row
        simp [refused] at enabled
      · simp at stepped

end MsmTftp
