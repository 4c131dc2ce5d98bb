import MsmTftp.SessionInversion

/-!
# The invariant of a session

Between two handlers exactly the operation that drives the state is
outstanding, or the session is stuck in `Accepting`.  While a handler runs
nothing is outstanding, and what is left of it fits the state.  In `Accepting`
and `Resetted` the data are those of a fresh session up to the fields `Reset`
leaves and those the listener fills.
-/

namespace MsmTftp

open CellBuffer TransitionSystem

section Frames

variable (environment : Environment) (data : SessionData)

theorem fileStream_of_openFileStream {path : Bytes}
    {readable truncate : Bool} {environment : Environment}
    {data : SessionData} (closed : data.fileStream = {})
    (opened : (openFileStream environment path readable truncate
      data).1.fileStream.isOpen = true) :
    (openFileStream environment path readable truncate data).1.fileStream =
      { isOpen := true, readable } := by
  simp only [openFileStream, FileStream.open, closed] at opened ⊢
  cases opens : environment.opensFile <;> simp_all

theorem setTransferSize_frame (request : RequestReceived) (path : Bytes) :
    ∃ used size, setTransferSize environment request path data =
      { data with useTransferSizeOption := used, fileSize := size } := by
  simp only [setTransferSize]
  repeat' split
  all_goals exact ⟨_, _, rfl⟩

theorem setTimeOut_frame (request : RequestReceived) :
    ∃ used duration, setTimeOut request data =
      { data with useTimeOutOption := used, timeOut := duration } := by
  simp only [setTimeOut]
  split <;> exact ⟨_, _, rfl⟩

theorem setBlockSize_frame (request : RequestReceived) :
    ∃ used size, setBlockSize request data =
      { data with useBlockSizeOption := used, agreedBlockSize := size } := by
  simp only [setBlockSize]
  split <;> exact ⟨_, _, rfl⟩

theorem openReadFile_frame (request : RequestReceived) :
    ∃ stream error used size,
      (openReadFile environment request data).1 =
        { data with
          fileStream := stream
          lastErrorCode := error
          useTransferSizeOption := used
          fileSize := size } := by
  simp only [openReadFile, openFileStream]
  split
  · split
    · rename_i path _
      obtain ⟨_, _, frame⟩ :=
        setTransferSize_frame environment data request path
      rw [frame]
      exact ⟨_, _, _, _, rfl⟩
    · exact ⟨_, _, _, _, rfl⟩
  · exact ⟨_, _, _, _, rfl⟩

theorem initServeReadRequest_frame (request : RequestReceived) :
    ∃ stream error useBlockSize useTimeOut useTransferSize duration size count,
      (initServeReadRequest environment request data).1 =
        { data with
          localDataEndpoint := ⟨data.localAddress, environment.tid⟩
          socketOpen := data.socketOpen || environment.opensSocket
          fileStream := stream
          lastErrorCode := error
          useBlockSizeOption := useBlockSize
          useTimeOutOption := useTimeOut
          useTransferSizeOption := useTransferSize
          timeOut := duration
          fileSize := size
          agreedBlockSize := count } := by
  obtain ⟨_, _, _, _, opened⟩ := openReadFile_frame environment
    (openDataSocket environment data) request
  simp only [initServeReadRequest, opened]
  obtain ⟨_, _, timed⟩ := setTimeOut_frame _ request
  rw [timed]
  obtain ⟨_, _, sized⟩ := setBlockSize_frame _ request
  rw [sized]
  exact ⟨_, _, _, _, _, _, _, _, rfl⟩

theorem initServeReadRequest_fileStream {environment : Environment}
    {request : RequestReceived} {data : SessionData} :
    (initServeReadRequest environment request data).1.fileStream =
      (openReadFile environment request
        (openDataSocket environment data)).1.fileStream := by
  simp only [initServeReadRequest]
  obtain ⟨_, _, timed⟩ := setTimeOut_frame
    (openReadFile environment request (openDataSocket environment data)).1
    request
  rw [timed]
  obtain ⟨_, _, sized⟩ := setBlockSize_frame _ request
  rw [sized]

theorem initServeWriteRequest_frame (request : RequestReceived) :
    ∃ stream error,
      (initServeWriteRequest environment request data).1 =
        { data with
          localDataEndpoint := ⟨data.localAddress, environment.tid⟩
          socketOpen := data.socketOpen || environment.opensSocket
          fileStream := stream
          lastErrorCode := error } := by
  simp only [initServeWriteRequest, openWriteFile, openDataSocket,
    openFileStream]
  repeat' split
  all_goals exact ⟨_, _, rfl⟩

theorem formDataPacket_frame :
    ∃ stream buffer packet size count error,
      formDataPacket environment data =
        { data with
          fileStream := stream
          sendBuffer := buffer
          sendPacket := packet
          lastBlockSize := size
          lastSentBlock := count
          lastErrorCode := error } := by
  simp only [formDataPacket]
  split <;> exact ⟨_, _, _, _, _, _, rfl⟩

theorem writeData_frame :
    ∃ stream size block error,
      (writeData environment data).1 =
        { data with
          fileStream := stream
          lastBlockSize := size
          lastSavedBlock := block
          lastErrorCode := error } := by
  simp only [writeData]
  split <;> exact ⟨_, _, _, _, rfl⟩

variable {environment} {data} {event : Option Event} {action : Action}
  {state : State}

/-- The counters change with the actions that count. -/
structure SessionData.KeepsCounters (action : Action)
    (data acted : SessionData) : Prop where
  saved : action ≠ .writeData → action ≠ .formOackPacket →
    acted.lastSavedBlock = data.lastSavedBlock
  sent : action ≠ .formDataPacket → action ≠ .formOackPacket →
    acted.lastSentBlock = data.lastSentBlock
  size : action ≠ .writeData → action ≠ .formDataPacket →
    acted.lastBlockSize = data.lastBlockSize
  retries : action ≠ .timeOut → action ≠ .resetTimeOut →
    acted.resendCount = data.resendCount

/-- What an action other than `Reset` leaves alone: besides the counters, the
configuration, the client and what was received from whom. -/
structure SessionData.KeepsSession (action : Action)
    (data acted : SessionData) : Prop where
  config : acted.config = data.config
  agreed : acted.agreedRemoteEndpoint = data.agreedRemoteEndpoint
  sender : acted.lastRemoteEndpoint = data.lastRemoteEndpoint
  packet : acted.receivedPacket = data.receivedPacket
  counters : data.KeepsCounters action acted

/-- What no action after the acceptance of a request changes either: the data
socket and what was agreed on. -/
structure SessionData.KeepsTransfer (action : Action)
    (data acted : SessionData) : Prop extends
    SessionData.KeepsSession action data acted where
  socketOpen : acted.socketOpen = data.socketOpen
  blockSize : acted.agreedBlockSize = data.agreedBlockSize
  timeOut : acted.timeOut = data.timeOut
  fileSize : acted.fileSize = data.fileSize
  options : acted.toOptions = data.toOptions

theorem SessionData.KeepsCounters.of_same {acted : SessionData}
    (saved : acted.lastSavedBlock = data.lastSavedBlock)
    (sent : acted.lastSentBlock = data.lastSentBlock)
    (size : acted.lastBlockSize = data.lastBlockSize)
    (retries : acted.resendCount = data.resendCount) :
    data.KeepsCounters action acted :=
  ⟨fun _ _ => saved, fun _ _ => sent, fun _ _ => size, fun _ _ => retries⟩

theorem run_keepsTransfer (environment : Environment) (event : Option Event)
    (data : SessionData) (ongoing : action ≠ .reset)
    (reads : action ≠ .initServeReadRequest)
    (writes : action ≠ .initServeWriteRequest) :
    data.KeepsTransfer action (action.run environment event data).1 := by
  cases action with
  | reset => exact absurd rfl ongoing
  | initServeReadRequest => exact absurd rfl reads
  | initServeWriteRequest => exact absurd rfl writes
  | formDataPacket =>
      obtain ⟨_, _, _, _, _, _, frame⟩ := formDataPacket_frame environment data
      rw [Action.run, frame]
      refine ⟨⟨rfl, rfl, rfl, rfl, ?_⟩, rfl, rfl, rfl, rfl, rfl⟩
      exact ⟨fun _ _ => rfl, fun other => absurd rfl other,
        fun _ other => absurd rfl other, fun _ _ => rfl⟩
  | writeData =>
      obtain ⟨_, _, _, _, frame⟩ := writeData_frame environment data
      rw [Action.run, frame]
      refine ⟨⟨rfl, rfl, rfl, rfl, ?_⟩, rfl, rfl, rfl, rfl, rfl⟩
      exact ⟨fun other => absurd rfl other, fun _ _ => rfl,
        fun other => absurd rfl other, fun _ _ => rfl⟩
  | formOackPacket =>
      refine ⟨⟨rfl, rfl, rfl, rfl, ?_⟩, rfl, rfl, rfl, rfl, rfl⟩
      exact ⟨fun _ other => absurd rfl other, fun _ other => absurd rfl other,
        fun _ _ => rfl, fun _ _ => rfl⟩
  | timeOut =>
      refine ⟨⟨rfl, rfl, rfl, rfl, ?_⟩, rfl, rfl, rfl, rfl, rfl⟩
      exact ⟨fun _ _ => rfl, fun _ _ => rfl, fun _ _ => rfl,
        fun other => absurd rfl other⟩
  | resetTimeOut =>
      refine ⟨⟨rfl, rfl, rfl, rfl, ?_⟩, rfl, rfl, rfl, rfl, rfl⟩
      exact ⟨fun _ _ => rfl, fun _ _ => rfl, fun _ _ => rfl,
        fun _ other => absurd rfl other⟩
  | _ =>
      exact ⟨⟨rfl, rfl, rfl, rfl, .of_same rfl rfl rfl rfl⟩,
        rfl, rfl, rfl, rfl, rfl⟩

theorem run_keepsSession (environment : Environment) (event : Option Event)
    (data : SessionData) (ongoing : action ≠ .reset) :
    data.KeepsSession action (action.run environment event data).1 := by
  by_cases reads : action = .initServeReadRequest
  · subst reads
    simp only [Action.run]
    split
    · rename_i request
      obtain ⟨_, _, _, _, _, _, _, _, frame⟩ :=
        initServeReadRequest_frame environment data request
      rw [frame]
      exact ⟨rfl, rfl, rfl, rfl, .of_same rfl rfl rfl rfl⟩
    · exact ⟨rfl, rfl, rfl, rfl, .of_same rfl rfl rfl rfl⟩
  · by_cases writes : action = .initServeWriteRequest
    · subst writes
      simp only [Action.run]
      split
      · rename_i request
        obtain ⟨_, _, frame⟩ :=
          initServeWriteRequest_frame environment data request
        rw [frame]
        exact ⟨rfl, rfl, rfl, rfl, .of_same rfl rfl rfl rfl⟩
      · exact ⟨rfl, rfl, rfl, rfl, .of_same rfl rfl rfl rfl⟩
    · exact (run_keepsTransfer environment event data ongoing reads
        writes).toKeepsSession

@[simp]
theorem run_config :
    (action.run environment event data).1.config = data.config := by
  by_cases resets : action = .reset
  · subst resets
    rfl
  · exact (run_keepsSession environment event data resets).config

/-- Actions touch files, and `Reset` closes the socket and cancels the timer;
whatever else is observed of the effects, an action has none. -/
theorem run_filterMap {Observation : Type*}
    {observe : Effect → Option Observation}
    (opens : ∀ path truncate, observe (.openFile path truncate) = none)
    (writes : ∀ bytes, observe (.writeFile bytes) = none)
    (closes : observe .closeFile = none)
    (closesSocket : observe .closeSocket = none)
    (cancels : observe .cancelTimer = none) :
    (action.run environment event data).2.filterMap observe = [] := by
  cases action with
  | initServeReadRequest =>
      simp only [Action.run, initServeReadRequest, openReadFile,
        openFileStream]
      repeat' split
      all_goals simp [opens]
  | initServeWriteRequest =>
      simp only [Action.run, initServeWriteRequest, openWriteFile,
        openFileStream]
      repeat' split
      all_goals simp [opens]
  | writeData =>
      simp only [Action.run, writeData]
      repeat' split
      all_goals simp [writes]
  | reset =>
      simp only [Action.run, resetSession]
      split <;> simp [closes, closesSocket, cancels]
  | _ => rfl

@[simp]
theorem run_operations :
    (action.run environment event data).2.filterMap Effect.operation = [] :=
  run_filterMap (fun _ _ => rfl) (fun _ => rfl) rfl rfl rfl

theorem exit_effects {effects : List Effect}
    (exits : state.exit data = some effects) :
    effects = [] ∨ effects = [.cancelSocket, .cancelTimer] := by
  cases state <;> simp only [State.exit, cancelOperations,
    Option.ite_none_right_eq_some, Option.some.injEq] at exits
  all_goals first
    | exact .inl exits.symm
    | exact .inr exits.2.symm

theorem entry_data :
    (state.entry data).1 =
      if state = .accepting then { data with receiveBuffer := fill 0 }
      else data := by
  cases state <;> rfl

theorem entry_operations :
    (state.entry data).2.filterMap Effect.operation =
      if state = .accepting ∧ data.listenerSocket = false then []
      else state.operation.toList := by
  cases state <;> simp [State.entry, enterAccepting, enterSending,
    enterReceive, State.operation, Effect.operation]
  cases data.listenerSocket <;> simp [Effect.operation]

theorem exit_operations {effects : List Effect}
    (exits : state.exit data = some effects) :
    effects.filterMap Effect.operation = [] := by
  rcases exit_effects exits with rfl | rfl <;> rfl

theorem exit_socketOpen {effects : List Effect}
    (exits : state.exit data = some effects)
    (uses : state.operation = some .send ∨ state.operation = some .receive) :
    data.socketOpen = true := by
  cases state <;> simp [State.operation] at uses
  all_goals
    simp only [State.exit, cancelOperations,
      Option.ite_none_right_eq_some] at exits
    exact exits.1

end Frames

/-- The data of a session that rests after `Reset`. -/
def SessionData.Rested (config : Config) (data : SessionData) : Prop :=
  data =
    { SessionData.fresh config with
      timeOut := data.timeOut
      fileSize := data.fileSize }

/-- The data of a session in `Accepting`, where the listener may have filled
the receive buffer. -/
def SessionData.Pristine (config : Config) (data : SessionData) : Prop :=
  data =
    { SessionData.fresh config with
      timeOut := data.timeOut
      fileSize := data.fileSize
      receiveBuffer := data.receiveBuffer
      receivedPacket := data.receivedPacket
      agreedRemoteEndpoint := data.agreedRemoteEndpoint }

theorem SessionData.Rested.pristine {config : Config} {data : SessionData}
    (rested : data.Rested config) : data.Pristine config := by
  rw [Rested] at rested
  rw [Pristine, rested]

/-- What is outstanding and what is left of the running handler in a state. -/
inductive Shape : State → List Task → List Operation → Prop
  | waiting {state : State} {operation : Operation}
      (drives : state.operation = some operation) :
      Shape state [] [operation]
  | stuck : Shape .accepting [] []
  | acceptFailed : Shape .accepting [.process .acceptingFailed] []
  | malformed {bytesReceived : Nat} :
      Shape .accepting [.process .acceptingFailed, .parse bytesReceived] []
  | parsing {bytesReceived : Nat} :
      Shape .accepting [.parse bytesReceived] []
  | requested {request : RequestReceived} :
      Shape .accepting [.process (.requestReceived request)] []
  | sent {state : State} (drives : state.operation = some .send) :
      Shape state [.process .packetSent] []
  | received {state : State} (drives : state.operation = some .receive) :
      Shape state [.process .packetReceived] []
  | timedOut {state : State} (drives : state.operation = some .receive) :
      Shape state [.process .timedOut] []
  | passing {state : State} (passes : state.operation = none) :
      Shape state [] []

theorem Shape.outstanding_eq {state : State} {operation : Operation}
    {outstanding : List Operation} (shape : Shape state [] outstanding)
    (drives : state.operation = some operation)
    (transfers : operation ≠ .listenerReceive) :
    outstanding = [operation] := by
  cases shape with
  | waiting waits =>
      rw [waits, Option.some.injEq] at drives
      rw [drives]
  | stuck =>
      rw [State.operation, Option.some.injEq] at drives
      exact absurd drives.symm transfers
  | passing passes => simp [passes] at drives

/-- The invariant. -/
structure Machine.WellFormed (config : Config) (machine : Machine) :
    Prop where
  configured : machine.data.config = config
  shape : Shape machine.state machine.tasks machine.outstanding
  rested : machine.state = .resetted ∨
    machine.state = .accepting ∧ machine.outstanding ≠ [] →
      machine.data.Rested config
  pristine : machine.state = .accepting → machine.data.Pristine config
  socketOpen : machine.state.operation = some .receive →
    machine.data.socketOpen = true

/-- Between two handlers the operation on the data socket that drives the
state is outstanding. -/
theorem Machine.WellFormed.outstanding_eq {config : Config}
    {machine : Machine} {operation : Operation}
    (wellFormed : machine.WellFormed config) (idle : machine.tasks = [])
    (drives : machine.state.operation = some operation)
    (transfers : operation ≠ .listenerReceive) :
    machine.outstanding = [operation] := by
  have shape := wellFormed.shape
  rw [idle] at shape
  exact shape.outstanding_eq drives transfers

theorem SessionData.Pristine.hasError {config : Config} {data : SessionData}
    (pristine : data.Pristine config) : data.hasError = false := by
  rw [Pristine] at pristine
  rw [pristine]
  rfl

theorem start_outgoing (data : SessionData) (completion : Completion) :
    (completion.start data).1.outgoing = data.outgoing := by
  cases completion <;> rfl

theorem reset_rested (environment : Environment) (data : SessionData) :
    (resetSession environment data).1.Rested data.config :=
  rfl

section Firings

variable {data : SessionData} {source target : State}
  {event : Option EventKind} {action : Action}

theorem Firing.action_of_resetted
    (firing : Firing data source event action .resetted) :
    action = .reset := by
  cases firing <;> rfl

theorem Firing.source_of_accepting
    (firing : Firing data source event action .accepting) :
    source = .resetted ∧ action = .none := by
  cases firing
  exact ⟨rfl, rfl⟩

theorem Firing.of_sendingError
    (firing : Firing data .sendingError event action target) :
    action = .reset ∧ target = .resetted := by
  cases firing
  exact ⟨rfl, rfl⟩

theorem Firing.of_readRequestReceived
    (firing : Firing data source event action .readRequestReceived) :
    source = .accepting ∧ event = some .requestReceived ∧
      action = .initServeReadRequest := by
  cases firing
  exact ⟨rfl, rfl, rfl⟩

/-- The waiting states are entered without an action, from states with an
operation on the data socket. -/
theorem Firing.action_of_receiving
    (firing : Firing data source event action target)
    (receiving : target.operation = some .receive) :
    action = .none ∧
      (source.operation = some .send ∨
        source.operation = some .receive) := by
  cases firing <;> simp [State.operation] at receiving ⊢

theorem Firing.ne_initServe (firing : Firing data source event action target)
    (serving : source ≠ .accepting) :
    action ≠ .initServeReadRequest ∧ action ≠ .initServeWriteRequest := by
  cases firing <;> simp_all

theorem Firing.of_initServe (firing : Firing data source event action target)
    (serves : action = .initServeReadRequest ∨
      action = .initServeWriteRequest) :
    source = .accepting ∧ event = some .requestReceived ∧
      target = if action = .initServeReadRequest then .readRequestReceived
        else .writeRequestReceived := by
  cases firing <;> simp_all

theorem Firing.of_writeData
    (firing : Firing data source event .writeData target) :
    source = .waitingForData ∧ event = some .packetReceived ∧
      target = .dataWritten ∧ data.hasDataReceived = true ∧
        data.isOldData = false := by
  cases firing with
  | newData agreed received new => exact ⟨rfl, rfl, rfl, received, new⟩

/-- Outside `ReadRequestReceived` completion rows leave the file alone. -/
theorem Firing.usesStream_of_completion
    (firing : Firing data source none action target)
    (other : source ≠ .readRequestReceived) :
    action.usesStream = false ∧ target ≠ .readRequestReceived := by
  cases firing <;> simp_all [Action.usesStream]

end Firings

/-- A firing takes the last task of a handler, while nothing is
outstanding. -/
theorem Shape.of_firing {data : SessionData} {state target : State}
    {event : Option Event} {tasks rest : List Task}
    {outstanding : List Operation} {action : Action}
    (shape : Shape state tasks outstanding)
    (running : tasks = event.toList.map Task.process ++ rest)
    (firing : Firing data state (event.map Event.kind) action target)
    (clean : state = .accepting → data.hasError = false) :
    rest = [] ∧ outstanding = [] := by
  cases event with
  | none =>
      have passes := firing.operation_eq_none
      obtain rfl : tasks = rest := running
      cases shape with
      | waiting drives => simp [passes] at drives
      | sent drives => simp [passes] at drives
      | received drives => simp [passes] at drives
      | timedOut drives => simp [passes] at drives
      | passing => exact ⟨rfl, rfl⟩
      | _ => simp [State.operation] at passes
  | some event =>
      simp only [Option.toList_some, List.map_cons, List.map_nil,
        List.cons_append, List.nil_append] at running
      cases shape with
      | malformed =>
          simp only [List.cons.injEq, Task.process.injEq] at running
          obtain ⟨rfl, _⟩ := running
          cases firing with
          | acceptingFailed error => simp [clean rfl] at error
      | _ => simp_all

/-- Entering a state starts the operation that drives it; without a live
listener `Accepting` starts none. -/
theorem shape_entered (data : SessionData) (state : State) :
    Shape state []
      ((state.entry data).2.filterMap Effect.operation) := by
  rw [entry_operations]
  split
  · rename_i deaf
    rw [deaf.1]
    exact .stuck
  · cases operation : state.operation with
    | none => exact .passing operation
    | some operation => exact .waiting ‹_›

theorem Machine.started_wellFormed (config : Config) :
    (Machine.started config).WellFormed config where
  configured := rfl
  shape := shape_entered (SessionData.fresh config) .accepting
  rested _ := rfl
  pristine _ := rfl
  socketOpen receiving := by simp [started, State.operation] at receiving

namespace Machine.WellFormed

variable {config : Config} {machine next : Machine}

theorem complete (wellFormed : machine.WellFormed config)
    {completion : Completion} (idle : machine.tasks = [])
    (started : completion.operation ∈ machine.outstanding) :
    Machine.WellFormed config
      { machine with
        data := (completion.start machine.data).1
        tasks := (completion.start machine.data).2.1
        outstanding :=
          machine.outstanding.erase completion.operation } := by
  obtain ⟨configured, shape, rested, pristine, socketOpen⟩ := wellFormed
  obtain ⟨state, data, outstanding, tasks⟩ := machine
  simp only at *
  have drives : state.operation = some completion.operation ∧
      outstanding = [completion.operation] := by
    cases shape <;> simp_all
  obtain ⟨drives, rfl⟩ := drives
  refine ⟨?_, ?_, ?_, ?_, ?_⟩
  · rw [← configured]
    cases completion <;> rfl
  · simp only [List.erase_cons_head]
    cases completion with
    | accepted sender datagram =>
        obtain rfl := State.eq_accepting drives
        simp only [Completion.start]
        split
        · exact .malformed
        · exact .parsing
    | acceptFailed =>
        obtain rfl := State.eq_accepting drives
        exact .acceptFailed
    | sent failed => exact .sent drives
    | received sender datagram => exact .received drives
    | receiveFailed => exact .timedOut drives
  · rintro (rfl | ⟨_, started⟩)
    · simp [State.operation] at drives
    · simp at started
  · rintro rfl
    have before := pristine rfl
    rw [SessionData.Pristine] at before ⊢
    cases completion with
    | accepted sender datagram =>
        rw [before]
        rfl
    | acceptFailed =>
        rw [before]
        rfl
    | _ => simp [State.operation, Completion.operation] at drives
  · intro receiving
    have isOpen := socketOpen receiving
    cases completion <;> exact isOpen

theorem fire (wellFormed : machine.WellFormed config)
    {action : Action} {target : State} {environment : Environment}
    {event : Option Event} {tasks : List Task} {exitEffects : List Effect}
    (running : machine.tasks = event.toList.map Task.process ++ tasks)
    (firing : Firing machine.data machine.state (event.map Event.kind)
      action target)
    (exits : machine.state.exit machine.data = some exitEffects)
    {acted entered : Outcome}
    (acts : acted = action.run environment event machine.data)
    (enters : entered = target.entry acted.1)
    {effects : List Effect}
    (allEffects : effects = exitEffects ++ acted.2 ++ entered.2) :
    Machine.WellFormed config
      { state := target
        data := entered.1
        outstanding :=
          machine.outstanding ++ effects.filterMap Effect.operation
        tasks } := by
  obtain ⟨configured, shape, rested, pristine, socketOpen⟩ := wellFormed
  obtain ⟨rfl, nothing⟩ := shape.of_firing running firing
    fun accepts => (pristine accepts).hasError
  have operations : effects.filterMap Effect.operation =
      entered.2.filterMap Effect.operation := by
    simp [allEffects, exit_operations exits, acts]
  subst acts enters
  have restedAfter : target = .resetted ∨ target = .accepting →
      (target.entry (action.run environment event machine.data).1).1.Rested
        config := by
    rintro (rfl | rfl)
    · rw [firing.action_of_resetted, ← configured]
      exact reset_rested environment machine.data
    · obtain ⟨source, rfl⟩ := firing.source_of_accepting
      have before := rested (.inl source)
      rw [SessionData.Rested] at before ⊢
      rw [Action.run, before]
      rfl
  refine ⟨?_, ?_, ?_, ?_, ?_⟩
  · rw [← configured, entry_data]
    split
    · exact run_config
    · exact run_config
  · simp only [nothing, List.nil_append, operations]
    exact shape_entered _ target
  · rintro (rests | ⟨rests, _⟩)
    · exact restedAfter (.inl rests)
    · exact restedAfter (.inr rests)
  · intro accepts
    exact (restedAfter (.inr accepts)).pristine
  · intro receiving
    obtain ⟨rfl, uses⟩ := firing.action_of_receiving receiving
    have isOpen : machine.data.socketOpen = true :=
      exit_socketOpen exits uses
    rw [entry_data]
    split <;> exact isOpen

theorem step (wellFormed : machine.WellFormed config) {input : Input}
    {effects : List Effect}
    (stepped : machine.step input = some (next, effects)) :
    next.WellFormed config := by
  cases stepCases stepped with
  | complete settled idle started => exact wellFormed.complete idle started
  | fire settled running firing exits acts enters allEffects =>
      exact wellFormed.fire running firing exits acts enters allEffects
  | parse settled running =>
      obtain ⟨configured, shape, rested, pristine, socketOpen⟩ := wellFormed
      refine ⟨configured, ?_, rested, pristine, socketOpen⟩
      rw [running] at shape
      generalize machine.state = state at shape
      generalize machine.outstanding = outstanding at shape
      cases shape
      exact .requested
  | reject settled running refused =>
      obtain ⟨configured, shape, rested, pristine, socketOpen⟩ := wellFormed
      refine ⟨configured, ?_, rested, pristine, socketOpen⟩
      obtain ⟨state, data, outstanding, tasks⟩ := machine
      simp only at *
      subst running
      cases shape with
      | acceptFailed => exact .stuck
      | malformed => exact .parsing
      | requested => exact .stuck
      | sent drives =>
          obtain ⟨_, _, firing⟩ := exists_sent_firing data drives
          exact absurd firing (refused _ _)
      | received drives =>
          obtain ⟨_, _, firing⟩ := exists_received_firing data drives
          exact absurd firing (refused _ _)
      | timedOut drives =>
          obtain ⟨_, _, firing⟩ := exists_timedOut_firing data drives
          exact absurd firing (refused _ _)

end Machine.WellFormed

theorem Reaches.extend {config : Config} {history : List Step}
    {machine next : Machine} {input : Input} {effects : List Effect}
    (run : Reaches config history machine)
    (stepped : machine.step input = some (next, effects)) :
    Reaches config (history ++ [⟨machine, input, effects, next⟩]) next :=
  System.run_concat.mpr ⟨run, stepped, rfl⟩

theorem Reaches.wellFormed {config : Config} {history : List Step}
    {machine : Machine} (run : Reaches config history machine) :
    machine.WellFormed config :=
  run.invariant (Machine.WellFormed config)
    (Machine.started_wellFormed config)
    fun _ before admitted => before.step admitted

/-- What holds of a session that starts, and is kept by the steps of
well-formed machines, holds of every session. -/
theorem Reaches.history_induction {config : Config} {history : List Step}
    {machine : Machine} (run : Reaches config history machine)
    (Invariant : List Step → Machine → Prop)
    (initially : Invariant [] (Machine.started config))
    (preserved : ∀ past before input effects after,
      Invariant past before → before.WellFormed config →
      before.step input = some (after, effects) →
        Invariant (past ++ [⟨before, input, effects, after⟩]) after) :
    Invariant history machine := by
  have invariant : machine.WellFormed config ∧
      Invariant history machine := by
    apply run.history_invariant (fun _ => True) (fun _ _ => trivial)
      (fun history machine => machine.WellFormed config ∧
        Invariant history machine)
    · exact ⟨Machine.started_wellFormed config, initially⟩
    · rintro past ⟨before, input, effects, after⟩ ⟨wellFormed, holds⟩
        admitted -
      exact ⟨wellFormed.step admitted,
        preserved past before input effects after holds wellFormed admitted⟩
  exact invariant.2

end MsmTftp
