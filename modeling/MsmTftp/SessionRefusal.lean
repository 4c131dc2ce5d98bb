import MsmTftp.SessionOrigin
import MsmTftp.SessionRequest

/-!
# Requests that cannot be served

A request with an unknown mode or a rejected path is refused with an ERROR,
whichever of the enabled rows is taken.  A file that cannot be opened is not
reported at all: a failed `open` sets the failbit, and both request actions
ask for the badbit.
-/

namespace MsmTftp

open CellBuffer TransitionSystem

/-- The datagram is a request that this action serves. -/
inductive Requests (datagram : Datagram) : Action → Prop
  | read (opcode : Packet.opCode datagram.bytes = .readRequest) :
      Requests datagram .initServeReadRequest
  | write (opcode : Packet.opCode datagram.bytes = .writeRequest) :
      Requests datagram .initServeWriteRequest

/-- The path a request action asks for. -/
def Environment.servedPath (environment : Environment) :
    Action → Bytes → Bytes → Option Bytes
  | .initServeReadRequest => environment.readFilePath
  | _ => environment.writeFilePath

/-- The answers the operating system gives to a request action. -/
def AnsweredBy (environment : Environment) : Action → Environment → Prop
  | .initServeReadRequest, other | .initServeWriteRequest, other =>
      other = environment
  | _, _ => True

/-- Why a request is refused: an unknown mode, or else a rejected path. -/
inductive Refused (environment : Environment) (action : Action)
    (rootPath : Bytes) (request : RequestReceived) : ErrorCode → Prop
  | mode (unknown : getMode request.mode = none) :
      Refused environment action rootPath request .illegalTftpOperation
  | path (known : getMode request.mode ≠ none)
      (rejected : environment.servedPath action rootPath request.fileName =
        none) :
      Refused environment action rootPath request .fileNotFound

/-- The request is acceptable, but its file cannot be opened. -/
structure OpenFails (environment : Environment) (action : Action)
    (rootPath : Bytes) (request : RequestReceived) : Prop where
  known : getMode request.mode ≠ none
  accepted : environment.servedPath action rootPath request.fileName ≠ none
  fails : environment.opensFile = false

/-- The handler of a request sends one packet, an ERROR to the requester, and
once it is sent the session resets and accepts again. -/
structure AnswersWithError (code : UInt16) (sender : Endpoint)
    (history : List Step) (next : Machine) : Prop where
  answer : sentPackets history = [(Packet.errorPacket code, sender)]
  sends : next.outstanding = [.send]
  resets : ∀ failed,
    (∃ later last, Handles next (.sent failed) later last) ∧
      ∀ later last, Handles next (.sent failed) later last →
        sentPackets later = [] ∧ (∃ step ∈ later, Step.Fires step .reset) ∧
          last.state = .accepting ∧ .listenerReceive ∈ last.outstanding

/-- The session opens no file for a request that it answers with an ERROR. -/
structure RefusesWith (code : UInt16) (sender : Endpoint)
    (history : List Step) (next : Machine) : Prop
    extends AnswersWithError code sender history next where
  noFile : ∀ effect ∈ history.flatMap Transition.outputs,
    effect.touchesFile = false
  noFileLater : ∀ failed later last, Handles next (.sent failed) later last →
    ∀ effect ∈ later.flatMap Transition.outputs, effect.touchesFile = false

/-- The part of a request action that opens the file. -/
def openRequestedFile (environment : Environment)
    (request : RequestReceived) (data : SessionData) : Action → Outcome
  | .initServeReadRequest => openReadFile environment request data
  | _ => openWriteFile environment request data

section Opening

variable {environment : Environment} {request : RequestReceived}
  {data : SessionData} {code : ErrorCode} {action : Action}
  {datagram : Datagram}

/-- What a request action leaves, besides the options. -/
structure ServedFrom (environment : Environment) (data : SessionData)
    (opened served : Outcome) : Prop where
  effects : served.2 = opened.2
  errorCode : served.1.lastErrorCode = opened.1.lastErrorCode
  stream : served.1.fileStream = opened.1.fileStream
  endpoint : served.1.agreedRemoteEndpoint = data.agreedRemoteEndpoint
  socket : served.1.socketOpen = (data.socketOpen || environment.opensSocket)

theorem Requests.servedFrom (requests : Requests datagram action)
    (environment : Environment) (request : RequestReceived)
    (data : SessionData) :
    ServedFrom environment data
      (openRequestedFile environment request (openDataSocket environment data)
        action)
      (action.run environment (some (.requestReceived request)) data) := by
  cases requests with
  | read =>
      obtain ⟨_, _, _, _, opened⟩ := openReadFile_frame environment
        (openDataSocket environment data) request
      simp only [Action.run, openRequestedFile, initServeReadRequest]
      obtain ⟨_, _, timed⟩ := setTimeOut_frame
        (openReadFile environment request
          (openDataSocket environment data)).1 request
      rw [timed]
      obtain ⟨_, _, sized⟩ := setBlockSize_frame _ request
      rw [sized]
      refine ⟨rfl, rfl, rfl, ?_, ?_⟩
      · exact congrArg (fun data => data.agreedRemoteEndpoint) opened
      · exact congrArg (fun data => data.socketOpen) opened
  | write =>
      obtain ⟨_, _, frame⟩ :=
        initServeWriteRequest_frame environment data request
      refine ⟨rfl, rfl, rfl, ?_, ?_⟩
      · exact congrArg (fun data => data.agreedRemoteEndpoint) frame
      · exact congrArg (fun data => data.socketOpen) frame

theorem Refused.openRequestedFile
    (refused : Refused environment action data.rootPath request code)
    (requests : Requests datagram action) :
    openRequestedFile environment request data action =
      ({ data with lastErrorCode := some code }, []) := by
  cases requests with
  | read =>
      cases refused with
      | mode unknown =>
          simp [MsmTftp.openRequestedFile, openReadFile, unknown]
      | path known rejected =>
          obtain ⟨mode, known⟩ := Option.ne_none_iff_exists'.mp known
          have rejected : environment.readFilePath data.rootPath
            request.fileName = none := rejected
          simp [MsmTftp.openRequestedFile, openReadFile, known, rejected]
  | write =>
      cases refused with
      | mode unknown =>
          simp [MsmTftp.openRequestedFile, openWriteFile, unknown]
      | path known rejected =>
          obtain ⟨mode, known⟩ := Option.ne_none_iff_exists'.mp known
          have rejected : environment.writeFilePath data.rootPath
            request.fileName = none := rejected
          simp [MsmTftp.openRequestedFile, openWriteFile, known, rejected]

/-- A failed `open` sets the failbit and leaves no error behind. -/
theorem OpenFails.openRequestedFile
    (fails : OpenFails environment action data.rootPath request)
    (requests : Requests datagram action)
    (sound : data.fileStream.badbit = false) :
    (openRequestedFile environment request data action).1.lastErrorCode =
        data.lastErrorCode ∧
      (openRequestedFile environment request data action).1.fileStream =
        { data.fileStream with failbit := true } := by
  obtain ⟨mode, known⟩ := Option.ne_none_iff_exists'.mp fails.known
  obtain ⟨path, accepted⟩ := Option.ne_none_iff_exists'.mp fails.accepted
  cases requests with
  | read =>
      have accepted : environment.readFilePath data.rootPath
        request.fileName = some path := accepted
      obtain ⟨_, _, sized⟩ :=
        setTransferSize_frame environment data request path
      simp [MsmTftp.openRequestedFile, openReadFile, known, accepted,
        openFileStream, sized, FileStream.open, fails.fails, FileStream.bad,
        sound]
  | write =>
      have accepted : environment.writeFilePath data.rootPath
        request.fileName = some path := accepted
      simp [MsmTftp.openRequestedFile, openWriteFile, known, accepted,
        openFileStream, FileStream.open, fails.fails, FileStream.bad, sound]

end Opening

/-- The state a request action leads to. -/
def Action.serves : Action → State
  | .initServeReadRequest => .readRequestReceived
  | _ => .writeRequestReceived

/-- What holds on the way to a packet that is no ERROR, although the file was
not opened. -/
def GrantsUnopened (data : SessionData) : State → Prop
  | .readRequestReceived =>
      data.hasError = false ∧ data.fileStream.failbit = true ∧
        data.fileStream.badbit = false
  | .writeRequestReceived => data.hasError = false
  | .dataRead =>
      data.hasError = false ∧ Packet.opCode data.outgoing ≠ .error
  | .sendingAck | .sendingData => Packet.opCode data.outgoing ≠ .error
  | _ => False

section Settling

variable {config : Config} {machine next : Machine} {sender : Endpoint}
  {datagram : Datagram} {environment : Environment} {action : Action}
  {allowed : Action → Environment → Prop} {data : SessionData}
  {state : State} {effects : List Effect} {code : ErrorCode}

/-- With an error recorded, every way to settle forms one ERROR packet: the
rows for options and for the error are both enabled, and the OACK of the
first is overwritten. -/
theorem Settles.of_error (settles : Settles allowed state data effects next)
    (error : data.lastErrorCode = some code)
    (serving : state = .readRequestReceived ∨ state = .writeRequestReceived ∨
      state = .dataRead) :
    ∃ last, next = Machine.entering .sendingError last ∧
      effects = [.sendTo (Packet.errorPacket code.value)
        data.agreedRemoteEndpoint] ∧
      last.socketOpen = data.socketOpen ∧
        last.fileStream = data.fileStream ∧ last.config = data.config := by
  induction settles with
  | waits waits =>
      rcases serving with rfl | rfl | rfl <;>
        exact absurd rfl waits
  | @passes state target data action environment effects next permitted
      firing settles ih =>
      have failed : data.hasError = true := by
        simp [SessionData.hasError, error]
      have refuses : ∀ final,
          Settles allowed .sendingError (formErrorPacket data) effects final →
          ∃ last, final = Machine.entering .sendingError last ∧
            effects = [.sendTo (Packet.errorPacket code.value)
              data.agreedRemoteEndpoint] ∧
            last.socketOpen = data.socketOpen ∧
              last.fileStream = data.fileStream ∧
                last.config = data.config := by
        intro final settles
        obtain ⟨rfl, rfl⟩ := settles.of_waits (by simp [State.operation])
        refine ⟨_, rfl, ?_, rfl, rfl, rfl⟩
        simp only [State.entry, enterSending, formErrorPacket, error,
          outgoing_formErrorPacketWith]
        rfl
      cases firing with
      | refuseRead => exact refuses _ settles
      | refuseWrite => exact refuses _ settles
      | readFailed => exact refuses _ settles
      | announceOptions => exact ih error (.inr (.inr rfl))
      | firstBlock noError => simp [failed] at noError
      | grantWrite noError => simp [failed] at noError
      | blockRead noError => simp [failed] at noError
      | _ => simp at serving

theorem GrantsUnopened.fire {target : State}
    (grants : GrantsUnopened data state)
    (firing : Firing data state none action target) :
    GrantsUnopened (action.run environment none data).1 target := by
  cases firing with
  | firstBlock noError plain =>
      obtain ⟨_, failed, sound⟩ := grants
      have delivered : (data.streamAfterRead environment).bad = false := by
        simp [SessionData.streamAfterRead, FileStream.read, FileStream.good,
          FileStream.bad, failed, sound]
      constructor
      · simp only [Action.run, formDataPacket_of_not_bad delivered]
        exact noError
      · rw [Action.run, outgoing_formDataPacket delivered,
          Packet.opCode_dataPacket]
        decide
  | announceOptions options =>
      refine ⟨grants.1, ?_⟩
      rw [Action.run, opCode_formOackPacket]
      decide
  | grantWrite noError =>
      have opcode : Packet.opCode (formAckPacket data).outgoing ≠ .error := by
        rw [outgoing_formAckPacket, Packet.opCode_ackPacket]
        decide
      exact opcode
  | blockRead noError => exact grants.2
  | refuseRead error => simp [grants.1] at error
  | refuseWrite error =>
      have clean : data.hasError = false := grants
      simp [clean] at error
  | readFailed error => simp [grants.1] at error
  | _ => exact grants.elim

theorem Firing.ne_reset_of_completion {source target : State}
    (firing : Firing data source none action target) : action ≠ .reset := by
  cases firing <;> simp

theorem Settles.of_grantsUnopened
    (settles : Settles allowed state data effects next)
    (grants : GrantsUnopened data state) :
    ∃ packet, effects.filterMap Effect.packet =
        [(packet, data.agreedRemoteEndpoint)] ∧
      Packet.opCode packet ≠ .error := by
  induction settles with
  | @waits state data waits =>
      cases state <;> simp [State.operation] at waits <;>
        first
          | exact grants.elim
          | exact ⟨_, rfl, grants⟩
  | @passes state target data action environment effects next permitted
      firing settles ih =>
      obtain ⟨packet, packets, opcode⟩ := ih (grants.fire firing)
      refine ⟨packet, ?_, opcode⟩
      rw [List.filterMap_append, packets,
        run_filterMap (fun _ _ => rfl) (fun _ => rfl) rfl rfl rfl,
        (run_keepsSession _ _ _ firing.ne_reset_of_completion).agreed]
      rfl

theorem Serves.of_requests
    (serves : Serves (AnsweredBy environment) machine sender datagram effects
      next)
    (requests : Requests datagram action)
    (wellFormed : machine.WellFormed config)
    (listens : .listenerReceive ∈ machine.outstanding) :
    ∃ rest, effects = (action.run environment
        (some (.requestReceived (machine.data.request sender datagram)))
        (machine.data.requested sender datagram)).2 ++ rest ∧
      Settles (AnsweredBy environment) action.serves (action.run environment
        (some (.requestReceived (machine.data.request sender datagram)))
        (machine.data.requested sender datagram)).1 rest next := by
  obtain ⟨accepts, _, _⟩ := wellFormed.of_listening listens
  have rested := wellFormed.rested
    (.inr ⟨accepts, List.ne_nil_of_mem listens⟩)
  have opcode : (machine.data.requested sender datagram).receivedOpCd =
      Packet.opCode datagram.bytes :=
    receivedOpCd_accepted rested sender datagram
  cases serves with
  | refused refused =>
      have taken : Packet.opCode datagram.bytes = .readRequest ∨
          Packet.opCode datagram.bytes = .writeRequest := by
        cases requests with
        | read read => exact .inl read
        | write write => exact .inr write
      obtain ⟨action, target, firing⟩ :=
        (wellFormed.exists_requested_firing listens).mpr taken
      exact absurd firing (refused action target)
  | served other permitted firing settles =>
      rcases firing.of_requestReceived with
        ⟨reads, rfl, rfl⟩ | ⟨writes, rfl, rfl⟩
      · obtain rfl : other = environment := permitted
        rw [SessionData.hasReadRequestReceived, opcode, beq_iff_eq] at reads
        cases requests with
        | read => exact ⟨_, rfl, settles⟩
        | write write =>
            rw [write] at reads
            exact absurd reads (by decide)
      · obtain rfl : other = environment := permitted
        rw [SessionData.hasWriteRequestReceived, opcode, beq_iff_eq] at writes
        cases requests with
        | write => exact ⟨_, rfl, settles⟩
        | read read =>
            rw [read] at writes
            exact absurd writes (by decide)

/-- After a failed `open` nothing speaks against granting the request. -/
theorem OpenFails.grantsUnopened {request : RequestReceived}
    (fails : OpenFails environment action data.rootPath request)
    (requests : Requests datagram action)
    (noError : data.lastErrorCode = none) (closed : data.fileStream = {}) :
    GrantsUnopened
      (action.run environment (some (.requestReceived request)) data).1
      action.serves := by
  obtain ⟨_, errorCode, stream, _, _⟩ :=
    requests.servedFrom environment request data
  have sound : (openDataSocket environment data).fileStream.badbit =
      false := by
    simp [openDataSocket, closed]
  have rooted : OpenFails environment action
      (openDataSocket environment data).rootPath request := fails
  obtain ⟨unchanged, failed⟩ := rooted.openRequestedFile requests sound
  rw [unchanged] at errorCode
  rw [failed] at stream
  have clean : (action.run environment
      (some (.requestReceived request)) data).1.hasError = false := by
    rw [SessionData.hasError, errorCode]
    simp [openDataSocket, noError]
  cases requests with
  | read =>
      refine ⟨clean, ?_, ?_⟩
      · rw [stream]
      · rw [stream]
        exact sound
  | write => exact clean

theorem exists_handles_answeredBy (environment : Environment)
    (wellFormed : machine.WellFormed config)
    (listens : .listenerReceive ∈ machine.outstanding) (sender : Endpoint)
    (datagram : Datagram) :
    ∃ history next, Handles machine (.accepted sender datagram) history next ∧
      ∀ step ∈ history, Step.Meets step (AnsweredBy environment) := by
  obtain ⟨effects, next, serves⟩ :=
    exists_serves environment machine sender datagram
  obtain ⟨history, handles, _, meets⟩ :=
    serves.exists_handles wellFormed listens
  refine ⟨history, next, handles, ?_⟩
  intro step member row other taken
  have same := meets step member row other taken
  cases action : row.action <;> simp [AnsweredBy, same]

theorem Machine.WellFormed.requested (wellFormed : machine.WellFormed config)
    (listens : .listenerReceive ∈ machine.outstanding) (sender : Endpoint)
    (datagram : Datagram) :
    (machine.data.requested sender datagram).rootPath = config.rootPath ∧
      (machine.data.requested sender datagram).lastErrorCode = none ∧
        (machine.data.requested sender datagram).fileStream = {} ∧
          (machine.data.requested sender datagram).socketOpen = false := by
  obtain ⟨accepts, _, _⟩ := wellFormed.of_listening listens
  have rested := wellFormed.rested
    (.inr ⟨accepts, List.ne_nil_of_mem listens⟩)
  rw [SessionData.Rested] at rested
  rw [rested]
  exact ⟨rfl, rfl, rfl, rfl⟩

end Settling

section Resetting

variable {config : Config} {machine next : Machine} {failed : Bool}
  {data : SessionData} {history : List Step} {input : Input}
  {effects : List Effect}

/-- A session listens only with a listener. -/
def Machine.Armed (config : Config) (machine : Machine) : Prop :=
  .listenerReceive ∈ machine.outstanding → config.listenerSocket = true

theorem listenerSocket_of_entering {state : State}
    (listens : .listenerReceive ∈ (Machine.entering state data).outstanding) :
    data.listenerSocket = true := by
  have operations : .listenerReceive ∈
      (state.entry data).2.filterMap Effect.operation := listens
  rw [entry_operations] at operations
  cases state <;>
    simp_all [State.operation]

theorem Machine.Armed.step (armed : machine.Armed config)
    (wellFormed : machine.WellFormed config)
    (stepped : machine.step input = some (next, effects)) :
    next.Armed config := by
  have configured := (wellFormed.step stepped).configured
  cases input with
  | complete completion =>
      cases stepCases stepped with
      | complete => exact fun listens => armed (List.mem_of_mem_erase listens)
  | parse =>
      cases stepCases stepped with
      | parse => exact armed
  | reject =>
      cases stepCases stepped with
      | reject => exact armed
  | fire row environment =>
      obtain ⟨event, exitEffects, cases⟩ := wellFormed.fireCases stepped
      have entered := cases.next_eq
      subst entered
      intro listens
      have live := listenerSocket_of_entering listens
      have same : (row.action.run environment event
          machine.data).1.config = config := by
        rw [run_config]
        exact wellFormed.configured
      rw [← same]
      exact live

theorem Reaches.armed (run : Reaches config history machine) :
    machine.Armed config := by
  apply run.history_induction fun _ machine => machine.Armed config
  · intro listens
    have entering : .listenerReceive ∈ (Machine.entering .accepting
        (Machine.started config).data).outstanding :=
      listens
    exact listenerSocket_of_entering entering
  · intro _ before _ _ after armed wellFormed stepped
    exact armed.step wellFormed stepped

theorem exists_handles_of_sendingError (isOpen : data.socketOpen = true)
    (failed : Bool) :
    ∃ later last,
      Handles (Machine.entering .sendingError data) (.sent failed) later
        last := by
  have exits : State.sendingError.exit data =
      some [.cancelSocket, .cancelTimer] := by
    simp [State.exit, cancelOperations, isOpen]
  have answers : Answers (fun _ _ => True)
      (Machine.entering .sendingError data) (.sent failed) _ _ :=
    .event {} trivial rfl .errorSent exits
      (.passes {} trivial .restart (.waits (by simp [State.operation])))
  obtain ⟨later, handles, _⟩ := answers.exists_handles (by rfl) rfl
  exact ⟨later, _, handles⟩

theorem Handles.of_sendingError
    (handles : Handles machine (.sent failed) history next)
    (wellFormed : machine.WellFormed config)
    (errs : machine.state = .sendingError) :
    machine.data.socketOpen = true ∧ (∃ step ∈ history, step.Fires .reset) ∧
      ∃ environment, next = Machine.entering .accepting
          (resetSession environment machine.data).1 ∧
        history.flatMap Transition.outputs =
          [.cancelSocket, .cancelTimer] ++
            ((resetSession environment machine.data).2 ++
              (State.accepting.entry
                (resetSession environment machine.data).1).2) := by
  obtain ⟨⟨before, input, outputs, middle⟩, rest, rfl, rfl, internal, run,
    returned⟩ := handles
  obtain ⟨rfl, stepped, continues⟩ := session_run_cons.mp run
  have formed := wellFormed.step stepped
  cases stepCases stepped with
  | complete settled idle started =>
      have fires : ∃ action target, Firing before.data before.state
          (some Event.packetSent.kind) action target := by
        rw [errs]
        exact ⟨_, _, .errorSent⟩
      obtain ⟨row, environment, exitEffects, effects, after, later, rfl,
        fired, cases, runsOn⟩ :=
          exists_fire_of_run formed rfl fires continues internal returned
      have firing := cases.firing
      simp only [errs] at firing
      obtain ⟨action, target⟩ := firing.of_sendingError
      have exits := cases.exits
      simp only [errs, State.exit, cancelOperations,
        Option.ite_none_right_eq_some, Option.some.injEq] at exits
      obtain ⟨isOpen, rfl⟩ := exits
      have entered := cases.next_eq
      have fired_effects := cases.effects_eq
      rw [action, target] at entered fired_effects
      subst entered
      have allowed (step : Step) (_ : step ∈ later) :
          step.Meets fun _ _ => True := by
        simp [Step.Meets]
      have settles := settles_of_run (formed.step fired) runsOn
        (List.forall_mem_cons.mp internal).2 allowed returned
      obtain ⟨landed, outputs⟩ := settles.of_resetted
      refine ⟨isOpen, ⟨_, List.mem_cons_of_mem _ List.mem_cons_self, row,
        environment, rfl, action⟩, environment, landed, ?_⟩
      rw [List.flatMap_cons, List.flatMap_cons, fired_effects]
      simp only [State.entry, List.append_nil, List.nil_append]
        at outputs ⊢
      rw [outputs, List.append_assoc]
      rfl

theorem reset_effects (environment : Environment)
    (closed : data.fileStream = {}) (live : data.listenerSocket = true) :
    (resetSession environment data).2 = [.closeSocket, .cancelTimer] ∧
      (State.accepting.entry (resetSession environment data).1).2 =
        [.listenerReceive] := by
  have stays : (resetSession environment data).1.listenerSocket = true := by
    have acted : (Action.reset.run environment none data).1.config =
        data.config := run_config
    have same : (resetSession environment data).1.config = data.config :=
      acted
    exact (congrArg Config.listenerSocket same).trans live
  constructor
  · simp [resetSession, closed]
  · simp [State.entry, enterAccepting, stays]

/-- The handler of a refused request, whichever rows it takes. -/
theorem Refused.handled {sender : Endpoint} {datagram : Datagram}
    {action : Action} {environment : Environment} {code : ErrorCode}
    (refused : Refused environment action config.rootPath
      (machine.data.request sender datagram) code)
    (requests : Requests datagram action)
    (wellFormed : machine.WellFormed config)
    (listens : .listenerReceive ∈ machine.outstanding)
    (handles : Handles machine (.accepted sender datagram) history next)
    (meets : ∀ step ∈ history, step.Meets (AnsweredBy environment)) :
    ∃ last, next = Machine.entering .sendingError last ∧
      history.flatMap Transition.outputs =
        [.sendTo (Packet.errorPacket code.value) sender] ∧
      last.socketOpen = environment.opensSocket ∧
        last.fileStream = {} ∧ last.config = config := by
  obtain ⟨rootPath, _, closed, unopened⟩ :=
    wellFormed.requested listens sender datagram
  obtain ⟨serves, _⟩ := handles.accepted _ wellFormed meets
  obtain ⟨rest, outputs, settles⟩ :=
    serves.of_requests requests wellFormed listens
  rw [← rootPath] at refused
  have rooted : Refused environment action
      (openDataSocket environment
        (machine.data.requested sender datagram)).rootPath
      (machine.data.request sender datagram) code := refused
  obtain ⟨effects, errorCode, stream, endpoint, socket⟩ :=
    requests.servedFrom environment (machine.data.request sender datagram)
      (machine.data.requested sender datagram)
  rw [rooted.openRequestedFile requests] at effects errorCode stream
  have serving : action.serves = .readRequestReceived ∨
      action.serves = .writeRequestReceived ∨ action.serves = .dataRead := by
    cases requests with
    | read => exact .inl rfl
    | write => exact .inr (.inl rfl)
  obtain ⟨last, landed, sent, lastSocket, lastStream, lastConfig⟩ :=
    settles.of_error errorCode serving
  refine ⟨last, landed, ?_, ?_, ?_, ?_⟩
  · rw [outputs, effects, sent, endpoint]
    rfl
  · rw [lastSocket, socket, unopened, Bool.false_or]
  · rw [lastStream, stream]
    exact closed
  · rw [lastConfig, run_config]
    exact wellFormed.configured

end Resetting

/-- A refused request gets one ERROR, opens no file, and the session resets
and accepts again, if and only if the data socket could be opened: cancelling
the operations of a socket that is not open throws. -/
theorem refused_request_iff (config : Config) (machine : Machine)
    (past : List Step) (run : Reaches config past machine)
    (listens : .listenerReceive ∈ machine.outstanding) (sender : Endpoint)
    (datagram : Datagram) (action : Action)
    (requests : Requests datagram action) (environment : Environment)
    (code : ErrorCode)
    (refused : Refused environment action config.rootPath
      (machine.data.request sender datagram) code) :
    (∀ history next, Handles machine (.accepted sender datagram) history
        next → (∀ step ∈ history, step.Meets (AnsweredBy environment)) →
          RefusesWith code.value sender history next) ↔
      environment.opensSocket = true := by
  have wellFormed := run.wellFormed
  constructor
  · intro refuses
    obtain ⟨history, next, handles, meets⟩ :=
      exists_handles_answeredBy environment wellFormed listens sender datagram
    obtain ⟨last, rfl, _, socket, _⟩ :=
      refused.handled requests wellFormed listens handles meets
    obtain ⟨⟨later, final, sent⟩, _⟩ :=
      (refuses history _ handles meets).resets false
    obtain ⟨isOpen, _⟩ :=
      sent.of_sendingError (handles.wellFormed wellFormed) rfl
    rw [← socket]
    exact isOpen
  · intro isOpen history next handles meets
    obtain ⟨last, rfl, outputs, socket, closed, configured⟩ :=
      refused.handled requests wellFormed listens handles meets
    have formed := handles.wellFormed wellFormed
    have live : last.listenerSocket = true :=
      (congrArg Config.listenerSocket configured).trans (run.armed listens)
    refine ⟨⟨?_, rfl, ?_⟩, ?_, ?_⟩
    · rw [sentPackets, outputs]
      rfl
    · intro failed
      refine ⟨exists_handles_of_sendingError (socket.trans isOpen) failed, ?_⟩
      intro later final sent
      obtain ⟨_, resets, answers, rfl, sentOutputs⟩ :=
        sent.of_sendingError formed rfl
      obtain ⟨reset, accept⟩ := reset_effects answers closed live
      refine ⟨?_, resets, rfl, ?_⟩
      · rw [sentPackets, sentOutputs, entering_data (by simp), reset, accept]
        rfl
      · have operations := congrArg (List.filterMap Effect.operation) accept
        exact List.mem_of_mem_head? (congrArg List.head? operations)
    · rw [outputs]
      simp [Effect.touchesFile]
    · intro failed later final sent
      obtain ⟨_, _, answers, _, sentOutputs⟩ :=
        sent.of_sendingError formed rfl
      obtain ⟨reset, accept⟩ := reset_effects answers closed live
      rw [sentOutputs, entering_data (by simp), reset, accept]
      simp [Effect.touchesFile]

/-- A file that cannot be opened is never reported: whatever rows are taken,
the request is granted with an ACK, an OACK or a DATA packet. -/
theorem open_failure_unreported (config : Config) (machine : Machine)
    (past : List Step) (run : Reaches config past machine)
    (listens : .listenerReceive ∈ machine.outstanding) (sender : Endpoint)
    (datagram : Datagram) (action : Action)
    (requests : Requests datagram action) (environment : Environment)
    (fails : OpenFails environment action config.rootPath
      (machine.data.request sender datagram)) :
    ¬ (∀ history next, Handles machine (.accepted sender datagram) history
        next → (∀ step ∈ history, step.Meets (AnsweredBy environment)) →
          ∃ code, AnswersWithError code sender history next) ∧
    ∀ history next, Handles machine (.accepted sender datagram) history
        next → (∀ step ∈ history, step.Meets (AnsweredBy environment)) →
      ∃ packet, sentPackets history = [(packet, sender)] ∧
        Packet.opCode packet ≠ .error := by
  have wellFormed := run.wellFormed
  obtain ⟨rootPath, noError, closed, _⟩ :=
    wellFormed.requested listens sender datagram
  have granted : ∀ history next,
      Handles machine (.accepted sender datagram) history next →
      (∀ step ∈ history, step.Meets (AnsweredBy environment)) →
        ∃ packet, sentPackets history = [(packet, sender)] ∧
          Packet.opCode packet ≠ .error := by
    intro history next handles meets
    obtain ⟨serves, _⟩ := handles.accepted _ wellFormed meets
    obtain ⟨rest, outputs, settles⟩ :=
      serves.of_requests requests wellFormed listens
    rw [← rootPath] at fails
    obtain ⟨packet, packets, opcode⟩ := settles.of_grantsUnopened
      (fails.grantsUnopened requests noError closed)
    refine ⟨packet, ?_, opcode⟩
    rw [sentPackets, outputs, List.filterMap_append, packets,
      run_filterMap (fun _ _ => rfl) (fun _ => rfl) rfl rfl rfl,
      (requests.servedFrom environment _ _).endpoint]
    rfl
  refine ⟨?_, granted⟩
  intro reported
  obtain ⟨history, next, handles, meets⟩ :=
    exists_handles_answeredBy environment wellFormed listens sender datagram
  obtain ⟨code, answers⟩ := reported history next handles meets
  obtain ⟨packet, sent, opcode⟩ := granted history next handles meets
  rw [answers.answer] at sent
  simp only [List.cons.injEq, Prod.mk.injEq, and_true] at sent
  rw [← sent, Packet.opCode_errorPacket] at opcode
  exact opcode rfl

section Examples

/-- A read request for a file named `f` with the mode `x`. -/
def unknownModeRequest : Datagram where
  bytes := requestBytes .readRequest [asciiBytes ['f'], asciiBytes ['x']]
  fits := by decide

private theorem unknownMode_refused (environment : Environment) :
    Refused environment .initServeReadRequest Config.loopback.rootPath
      ((Machine.started .loopback).data.request .client unknownModeRequest)
      .illegalTftpOperation :=
  .mode (by decide +kernel)

private theorem unknownMode_requests :
    Requests unknownModeRequest .initServeReadRequest :=
  .read (by decide +kernel)

/-- The read request with an unknown mode is refused with code 4. -/
theorem unknown_mode_refused :
    ∃ history next,
      Handles (Machine.started .loopback)
        (.accepted .client unknownModeRequest) history next ∧
      (∀ step ∈ history, Step.Meets step (AnsweredBy {})) ∧
        RefusesWith 4 .client history next := by
  have wellFormed := Machine.started_wellFormed .loopback
  have refuses := (refused_request_iff .loopback (Machine.started .loopback)
    [] rfl (by decide) .client unknownModeRequest .initServeReadRequest
    unknownMode_requests {} .illegalTftpOperation
    (unknownMode_refused {})).mpr rfl
  obtain ⟨history, next, handles, meets⟩ := exists_handles_answeredBy {}
    wellFormed (by decide) .client unknownModeRequest
  exact ⟨history, next, handles, meets, refuses history next handles meets⟩

/-- Without a data socket the handler of the sent ERROR throws, so that none
returns. -/
theorem refusal_throws :
    ∃ history next,
      Handles (Machine.started .loopback)
        (.accepted .client unknownModeRequest) history next ∧
      (∀ step ∈ history,
        Step.Meets step (AnsweredBy { opensSocket := false })) ∧
      (∀ failed later last, ¬ Handles next (.sent failed) later last) ∧
        ¬ RefusesWith 4 .client history next := by
  have wellFormed := Machine.started_wellFormed .loopback
  obtain ⟨history, next, handles, meets⟩ := exists_handles_answeredBy
    { opensSocket := false } wellFormed (by decide) .client unknownModeRequest
  obtain ⟨last, rfl, _, socket, _⟩ :=
    (unknownMode_refused { opensSocket := false }).handled
      unknownMode_requests wellFormed (by decide) handles meets
  have stuck : ∀ failed later final,
      ¬ Handles (Machine.entering .sendingError last) (.sent failed) later
        final := by
    intro failed later final sent
    obtain ⟨isOpen, _⟩ :=
      sent.of_sendingError (handles.wellFormed wellFormed) rfl
    have isOpen : last.socketOpen = true := isOpen
    simp [socket] at isOpen
  refine ⟨history, _, handles, meets, stuck, ?_⟩
  intro refuses
  obtain ⟨⟨later, final, sent⟩, _⟩ := refuses.resets false
  exact stuck false later final sent

private theorem writeRequest_requests :
    Requests (requestOf .writeRequest) .initServeWriteRequest :=
  .write (by decide +kernel)

private theorem writeRequest_openFails :
    OpenFails { opensFile := false } .initServeWriteRequest
      Config.loopback.rootPath
      ((Machine.started .loopback).data.request .client
        (requestOf .writeRequest)) :=
  ⟨by decide +kernel, by simp [Environment.servedPath], rfl⟩

/-- The write request for a file that cannot be opened is not refused. -/
theorem unopened_write_not_refused :
    ∃ history next,
      Handles (Machine.started .loopback)
        (.accepted .client (requestOf .writeRequest)) history next ∧
      (∀ step ∈ history,
        Step.Meets step (AnsweredBy { opensFile := false })) ∧
      ∃ packet, sentPackets history = [(packet, .client)] ∧
        Packet.opCode packet ≠ .error := by
  have wellFormed := Machine.started_wellFormed .loopback
  obtain ⟨_, granted⟩ := open_failure_unreported .loopback
    (Machine.started .loopback) [] rfl (by decide) .client
    (requestOf .writeRequest) .initServeWriteRequest writeRequest_requests
    { opensFile := false } writeRequest_openFails
  obtain ⟨history, next, handles, meets⟩ :=
    exists_handles_answeredBy { opensFile := false } wellFormed (by decide)
      .client (requestOf .writeRequest)
  exact ⟨history, next, handles, meets, granted history next handles meets⟩

/-- It is granted with an ACK. -/
theorem unopened_write_granted :
    ∃ history next,
      Handles (Machine.started .loopback)
        (.accepted .client (requestOf .writeRequest)) history next ∧
      (∀ step ∈ history,
        Step.Meets step (AnsweredBy { opensFile := false })) ∧
      sentPackets history = [(Packet.ackPacket 0, .client)] ∧
        ¬ ∃ code, AnswersWithError code .client history next := by
  have firing : Firing ((Machine.started .loopback).data.requested .client
      (requestOf .writeRequest)) .accepting (some .requestReceived)
        .initServeWriteRequest .writeRequestReceived :=
    .acceptWrite (by decide) (by decide +kernel)
  have granted : Firing (Action.run { opensFile := false }
      (some (.requestReceived ((Machine.started .loopback).data.request
        .client (requestOf .writeRequest))))
      ((Machine.started .loopback).data.requested .client
        (requestOf .writeRequest)) .initServeWriteRequest).1
      .writeRequestReceived none .formAckPacket .sendingAck :=
    .grantWrite (by decide +kernel)
  have serves : Serves (AnsweredBy { opensFile := false })
      (Machine.started .loopback) .client (requestOf .writeRequest) _ _ :=
    .served { opensFile := false } (by rfl) firing
      (.passes {} (by trivial) granted (.waits (by decide)))
  obtain ⟨history, handles, outputs, meets⟩ := serves.exists_handles
    (Machine.started_wellFormed .loopback) (by decide)
  have packets : sentPackets history = [(Packet.ackPacket 0, .client)] := by
    rw [sentPackets, outputs]
    decide +kernel
  refine ⟨history, _, handles, meets, packets, ?_⟩
  rintro ⟨code, answers⟩
  have sent := answers.answer
  rw [packets] at sent
  simp only [List.cons.injEq, Prod.mk.injEq, and_true] at sent
  have opcode := congrArg Packet.opCode sent
  rw [Packet.opCode_ackPacket, Packet.opCode_errorPacket] at opcode
  exact absurd opcode (by decide)

end Examples

end MsmTftp
