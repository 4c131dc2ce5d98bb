import MsmTftp.ProtocolRequestFormat
import MsmTftp.SessionHandler
import MsmTftp.SessionListening

/-!
# The handler of the listener

A datagram that is too short or does not end in a NUL raises
`AcceptingFailed`, and `ProcessEventFromBuffer` goes on to parse it all the
same: a `return` is missing.  No row takes the first event, so the datagram is
served like any other request.
-/

namespace MsmTftp

open CellBuffer TransitionSystem

/-- The events `ProcessEventFromBuffer` raises, in order. -/
def processEventFromBuffer (buffer : Buffer UInt8) (bytesReceived : Nat) :
    List Event :=
  (if isMalformed buffer bytesReceived then [.acceptingFailed] else []) ++
    [.requestReceived (parseRequest buffer bytesReceived)]

/-- The event handed to `process_event` whose row a step takes or refuses. -/
def Step.raised (step : Step) : Option Event :=
  match step.input, step.before.tasks with
  | .fire row _, .process event :: _ => row.event.map fun _ => event
  | .reject, .process event :: _ => some event
  | _, _ => none

/-- The events a history hands to `process_event`. -/
def raisedEvents (history : List Step) : List Event :=
  history.filterMap Step.raised

/-- The data with a datagram of the listener in the receive buffer. -/
def SessionData.requested (data : SessionData) (sender : Endpoint)
    (datagram : Datagram) : SessionData :=
  { data.deliver datagram.bytes with agreedRemoteEndpoint := sender }

/-- The request read from the receive buffer behind a datagram. -/
def SessionData.request (data : SessionData) (sender : Endpoint)
    (datagram : Datagram) : RequestReceived :=
  parseRequest (data.requested sender datagram).receiveBuffer
    datagram.bytes.length

theorem last_of_requestBytes {opcode : OpCode} {fileName : Bytes}
    {strings : List Bytes} {buffer : Buffer UInt8} {bytesReceived : Nat}
    (shown : view buffer bytesReceived =
      requestBytes opcode (fileName :: strings)) :
    buffer (bytesReceived - 1) = 0 := by
  obtain ⟨before, last, split⟩ :=
    (List.eq_nil_or_concat' (fileName :: strings)).resolve_left (by simp)
  have nonempty : 0 < bytesReceived := by
    have length := congrArg List.length shown
    simp only [view_length, requestBytes, List.length_append,
      wordBytes_length] at length
    omega
  have ends := congrArg List.getLast? shown
  rw [requestBytes, split, List.flatMap_append, List.flatMap_singleton,
    ← List.append_assoc, ← List.append_assoc, List.getLast?_concat,
    List.getLast?_eq_getElem?, view_length,
    List.getElem?_eq_getElem (by rw [view_length]; omega), view_getElem,
    Option.some.injEq] at ends
  exact ends

/-- The shortest request, an empty file name without a mode, counts as
malformed; no other one does. -/
theorem isMalformed_of_requestBytes {opcode : OpCode} {fileName : Bytes}
    {strings : List Bytes} {buffer : Buffer UInt8} {bytesReceived : Nat}
    (shown : view buffer bytesReceived =
      requestBytes opcode (fileName :: strings)) :
    isMalformed buffer bytesReceived = true ↔
      fileName = [] ∧ strings = [] := by
  have length := congrArg List.length shown
  simp only [view_length, requestBytes, List.length_append, wordBytes_length,
    List.flatMap_cons, List.length_singleton] at length
  rw [isMalformed, last_of_requestBytes shown, bne_self_eq_false,
    Bool.or_false, decide_eq_true_iff, ShortHeaderView.size,
    ← List.length_eq_zero_iff]
  cases strings with
  | nil =>
      simp only [List.flatMap_nil, List.length_nil] at length
      simp only [and_true]
      omega
  | cons string strings =>
      simp only [List.flatMap_cons, List.length_append,
        List.length_singleton] at length
      simp only [reduceCtorEq, and_false, iff_false]
      omega

/-- A request that fits the buffer is read back by `ProcessEventFromBuffer`,
whose option loop ends: it raises one `RequestReceived` with the values the
strings of the request stand for. -/
theorem request_read_back (opcode : OpCode) (fileName : Bytes)
    (strings : List Bytes) (buffer : Buffer UInt8) (bytesReceived : Nat)
    (plain : ∀ string ∈ fileName :: strings, 0 ∉ string)
    (shown : view buffer bytesReceived =
      requestBytes opcode (fileName :: strings))
    (fits : bytesReceived ≤ kBufferSize) :
    (∀ request, Parses buffer bytesReceived request ↔
      request = .ofStrings opcode fileName strings) ∧
    processEventFromBuffer buffer bytesReceived =
      (if fileName = [] ∧ strings = [] then [.acceptingFailed] else []) ++
        [.requestReceived (.ofStrings opcode fileName strings)] := by
  obtain ⟨segments, read⟩ := segments_of_requestBytes shown plain
  have parsed := parseRequest_of_segments segments fits
  rw [read] at parsed
  constructor
  · intro request
    rw [parses_iff, parsed]
  · rw [processEventFromBuffer, parsed]
    congr 1
    exact if_congr (isMalformed_of_requestBytes shown) rfl rfl

/-- The value `tsize` of `blksize` is not taken for a key, and the key at the
end has no value. -/
theorem options_read_back :
    processEventFromBuffer
      (ofList 0 (requestBytes .readRequest
        [asciiBytes ['f'], kOctetMode, BlockSizeDecoder.kBlockSizeOption,
          TransferSizeDecoder.kTransferSizeOption,
          asciiBytes ['T', 'S', 'i', 'z', 'e'], asciiBytes ['0'],
          TimeOutDecoder.kTimeOutOption])) 40 =
      [.requestReceived
        { opCode := .readRequest
          fileName := asciiBytes ['f']
          mode := kOctetMode
          blockSize := TransferSizeDecoder.kTransferSizeOption
          transferSize := asciiBytes ['0'] }] := by
  have parsed := (request_read_back .readRequest (asciiBytes ['f'])
    [kOctetMode, BlockSizeDecoder.kBlockSizeOption,
      TransferSizeDecoder.kTransferSizeOption,
      asciiBytes ['T', 'S', 'i', 'z', 'e'], asciiBytes ['0'],
      TimeOutDecoder.kTimeOutOption] (ofList 0 (requestBytes .readRequest
        [asciiBytes ['f'], kOctetMode, BlockSizeDecoder.kBlockSizeOption,
          TransferSizeDecoder.kTransferSizeOption,
          asciiBytes ['T', 'S', 'i', 'z', 'e'], asciiBytes ['0'],
          TimeOutDecoder.kTimeOutOption])) 40 (by decide)
    (view_write_zero _ _) (by decide)).2
  rw [parsed]
  decide +kernel

/-- What the handler of an accepted datagram does: no row takes the request,
or a row starts to serve it and completion rows follow. -/
inductive Serves (allowed : Action → Environment → Prop) (machine : Machine)
    (sender : Endpoint) (datagram : Datagram) :
    List Effect → Machine → Prop
  | refused (refused : ∀ action target,
        ¬ Firing (machine.data.requested sender datagram) .accepting
          (some .requestReceived) action target) :
      Serves allowed machine sender datagram []
        ⟨.accepting, machine.data.requested sender datagram, [], []⟩
  | served {action : Action} {target : State} (environment : Environment)
      {effects : List Effect} {next : Machine}
      (permitted : allowed action environment)
      (firing : Firing (machine.data.requested sender datagram) .accepting
        (some .requestReceived) action target)
      (settles : Settles allowed target
        (action.run environment
          (some (.requestReceived (machine.data.request sender datagram)))
          (machine.data.requested sender datagram)).1 effects next) :
      Serves allowed machine sender datagram
        ((action.run environment
          (some (.requestReceived (machine.data.request sender datagram)))
          (machine.data.requested sender datagram)).2 ++ effects) next

section Tokens

open RequestTokenizer

/-- The key is the name of an option. -/
def isOption (key : Bytes) : Bool :=
  BlockSizeDecoder.isBlockSizeOption key ||
    TimeOutDecoder.isTimeOutOption key ||
      TransferSizeDecoder.isTransferSizeOption key

/-- The iterators that the option loop dereferences: every key, and the
values of known keys. -/
def dereferencedOptions (buffer : Buffer UInt8) :
    Nat → Iterator → List Iterator
  | 0, _ => []
  | rounds + 1, token =>
      let value := token.advance buffer
      if value.atEnd then [token]
      else
        let known :=
          if isOption (token.deref buffer) then [token, value] else [token]
        let next := value.advance buffer
        if next.atEnd then known
        else known ++ dereferencedOptions buffer rounds next

/-- The iterators that `ProcessEventFromBuffer` dereferences.  The first is
dereferenced before any comparison with `end()`. -/
def dereferenced (buffer : Buffer UInt8) (bytesReceived : Nat) :
    List Iterator :=
  let file := fileToken buffer bytesReceived
  let mode := modeToken buffer bytesReceived
  if mode.atEnd then [file]
  else
    let next := mode.advance buffer
    if next.atEnd then [file, mode]
    else file :: mode :: dereferencedOptions buffer bytesReceived next

end Tokens

/-- A datagram too short for a request, or whose last byte is not NUL. -/
def Malformed (buffer : Buffer UInt8) (bytesReceived : Nat) : Prop :=
  bytesReceived < 4 ∨ buffer (bytesReceived - 1) ≠ 0

/-- What `ProcessEventFromBuffer` is meant to do: raise `AcceptingFailed` for
a malformed datagram, with no token range built the wrong way round and no end
iterator dereferenced, and raise `RequestReceived` for any other. -/
structure EventsAsIntended (buffer : Buffer UInt8) (bytesReceived : Nat) :
    Prop where
  malformed : Malformed buffer bytesReceived →
    processEventFromBuffer buffer bytesReceived = [.acceptingFailed] ∧
      ShortHeaderView.size ≤ bytesReceived ∧
        ∀ iterator ∈ dereferenced buffer bytesReceived,
          iterator.atEnd = false
  other : ¬ Malformed buffer bytesReceived →
    ∃ request, processEventFromBuffer buffer bytesReceived =
      [.requestReceived request]

/-- What the handler of a datagram is meant to do: a malformed one opens no
file and is not answered. -/
structure HandledAsIntended (datagram : Datagram) (history : List Step) :
    Prop where
  malformed : Malformed (ofList 0 datagram.bytes) datagram.bytes.length →
    raisedEvents history = [.acceptingFailed] ∧ sentPackets history = [] ∧
      ∀ effect ∈ history.flatMap Transition.outputs,
        effect.touchesFile = false
  other : ¬ Malformed (ofList 0 datagram.bytes) datagram.bytes.length →
    ∃ request, raisedEvents history = [.requestReceived request]

/-- The states behind an accepted request, up to the sending of a packet. -/
def State.replies : State → Bool
  | writeRequestReceived | dataWritten | readRequestReceived | dataRead
  | sendingAck | sendingData | sendingError => true
  | accepting | waitingForData | waitingForAck | resetted => false

section Handlers

theorem Firing.hasError_of_acceptingFailed {data : SessionData}
    {action : Action} {target : State}
    (firing : Firing data .accepting (some .acceptingFailed) action target) :
    data.hasError = true := by
  cases firing with
  | acceptingFailed error => exact error

theorem Firing.of_requestReceived {data : SessionData} {action : Action}
    {target : State}
    (firing : Firing data .accepting (some .requestReceived) action target) :
    data.hasReadRequestReceived = true ∧ action = .initServeReadRequest ∧
        target = .readRequestReceived ∨
      data.hasWriteRequestReceived = true ∧
        action = .initServeWriteRequest ∧ target = .writeRequestReceived := by
  cases firing with
  | acceptRead noError opcode => exact .inl ⟨opcode, rfl, rfl⟩
  | acceptWrite noError opcode => exact .inr ⟨opcode, rfl, rfl⟩

variable {config : Config} {machine next : Machine}
  {allowed : Action → Environment → Prop} {sender : Endpoint}
  {datagram : Datagram}

theorem raisedEvents_of_idle {rest : List Step}
    (run : session.Run machine rest next) (idle : machine.tasks = [])
    (internal : ∀ step ∈ rest, step.Internal) : raisedEvents rest = [] := by
  induction rest generalizing machine with
  | nil => rfl
  | cons step rest ih =>
      obtain ⟨before, input, outputs, after⟩ := step
      obtain ⟨rfl, stepped, continues⟩ := session_run_cons.mp run
      obtain ⟨here, later⟩ := List.forall_mem_cons.mp internal
      have silent : Step.raised ⟨before, input, outputs, after⟩ = none := by
        cases input <;> simp [Step.raised, idle]
      have stays : after.tasks = [] := by
        cases stepCases stepped with
        | complete => exact absurd rfl (here _)
        | parse settled running => simp [idle] at running
        | reject settled running => simp [idle] at running
        | @fire _ _ event tasks _ settled running =>
            rw [idle] at running
            exact (List.append_eq_nil_iff.mp running.symm).2
      rw [raisedEvents, List.filterMap_cons_none silent]
      exact ih continues stays later

/-- In `Accepting` no row takes `AcceptingFailed`. -/
theorem reject_of_acceptingFailed {rest : List Step} {tasks : List Task}
    (clean : machine.data.hasError = false)
    (accepts : machine.state = .accepting)
    (running : machine.tasks = .process .acceptingFailed :: tasks)
    (run : session.Run machine rest next) (returned : next.returned = true)
    (internal : ∀ step ∈ rest, step.Internal) :
    ∃ later, rest =
        ⟨machine, .reject, [], { machine with tasks }⟩ :: later ∧
      session.Run { machine with tasks } later next := by
  cases rest with
  | nil =>
      obtain rfl := System.run_nil.mp run
      simp [(returned_iff.mp returned).2] at running
  | cons step rest =>
      obtain ⟨before, input, outputs, after⟩ := step
      obtain ⟨rfl, stepped, continues⟩ := session_run_cons.mp run
      obtain ⟨here, _⟩ := List.forall_mem_cons.mp internal
      cases stepCases stepped with
      | complete => exact absurd rfl (here _)
      | parse settled parsing => simp [running] at parsing
      | reject settled rejecting =>
          simp only [running, List.cons.injEq] at rejecting
          obtain ⟨_, rfl⟩ := rejecting
          exact ⟨rest, rfl, continues⟩
      | @fire _ _ event _ _ settled processing firing =>
          cases event with
          | none =>
              rw [accepts] at firing
              exact absurd firing.operation_eq_none
                (by simp [State.operation])
          | some event =>
              simp only [running, Option.toList_some, List.map_cons,
                List.map_nil, List.cons_append, List.nil_append,
                List.cons.injEq, Task.process.injEq] at processing
              obtain ⟨rfl, _⟩ := processing
              rw [accepts] at firing
              exact absurd firing.hasError_of_acceptingFailed (by simp [clean])

theorem parse_of_parsing {rest : List Step} {bytesReceived : Nat}
    {tasks : List Task} (accepts : machine.state = .accepting)
    (running : machine.tasks = .parse bytesReceived :: tasks)
    (run : session.Run machine rest next) (returned : next.returned = true)
    (internal : ∀ step ∈ rest, step.Internal) :
    ∃ later after, rest = ⟨machine, .parse, [], after⟩ :: later ∧
      after = { machine with
        tasks := .process (.requestReceived
          (parseRequest machine.data.receiveBuffer bytesReceived)) ::
            tasks } ∧
      session.Run after later next := by
  cases rest with
  | nil =>
      obtain rfl := System.run_nil.mp run
      simp [(returned_iff.mp returned).2] at running
  | cons step rest =>
      obtain ⟨before, input, outputs, after⟩ := step
      obtain ⟨rfl, stepped, continues⟩ := session_run_cons.mp run
      obtain ⟨here, _⟩ := List.forall_mem_cons.mp internal
      cases stepCases stepped with
      | complete => exact absurd rfl (here _)
      | reject settled rejecting => simp [running] at rejecting
      | parse settled parsing =>
          simp only [running, List.cons.injEq, Task.parse.injEq] at parsing
          obtain ⟨rfl, rfl⟩ := parsing
          exact ⟨rest, _, rfl, rfl, continues⟩
      | @fire _ _ event _ _ settled processing firing =>
          cases event with
          | none =>
              rw [accepts] at firing
              exact absurd firing.operation_eq_none
                (by simp [State.operation])
          | some event => simp [running] at processing

theorem serves_of_run {rest : List Step}
    (formed : Machine.WellFormed config
      ⟨.accepting, machine.data.requested sender datagram, [],
        [.process (.requestReceived (machine.data.request sender datagram))]⟩)
    (run : session.Run ⟨.accepting, machine.data.requested sender datagram, [],
      [.process (.requestReceived (machine.data.request sender datagram))]⟩
        rest next)
    (internal : ∀ step ∈ rest, step.Internal)
    (meets : ∀ step ∈ rest, step.Meets allowed)
    (returned : next.returned = true) :
    Serves allowed machine sender datagram (rest.flatMap Transition.outputs)
        next ∧
      raisedEvents rest =
        [.requestReceived (machine.data.request sender datagram)] := by
  cases rest with
  | nil =>
      obtain rfl := System.run_nil.mp run
      simp [Machine.returned] at returned
  | cons step rest =>
      obtain ⟨before, input, outputs, after⟩ := step
      obtain ⟨rfl, stepped, continues⟩ := session_run_cons.mp run
      obtain ⟨here, later⟩ := List.forall_mem_cons.mp internal
      obtain ⟨permits, meetsLater⟩ := List.forall_mem_cons.mp meets
      have formedLater := formed.step stepped
      rcases formed.exists_fireCases_of_event rfl stepped here with
        ⟨rfl, rfl, rfl, refused⟩ |
          ⟨row, environment, exitEffects, rfl, cases⟩
      · obtain rfl : rest = [] := continues.eq_nil_of_stuck
          (step_eq_none_of_stuck (by rfl) rfl)
        obtain rfl := System.run_nil.mp continues
        exact ⟨.refused refused, rfl⟩
      · have firing := cases.firing
        have silent := raisedEvents_of_idle continues cases.tasks_eq later
        have exits := cases.exits
        have outputs_eq := cases.effects_eq
        have after_eq := cases.next_eq
        simp only [State.exit, Option.some.injEq] at exits
        subst exits after_eq
        have settles :=
          settles_of_run formedLater continues later meetsLater returned
        have events := (mem_enabledRows.mp cases.enabled).2.2.1
        constructor
        · rw [List.flatMap_cons, outputs_eq, List.nil_append,
            List.append_assoc]
          exact .served environment (permits row environment rfl) firing
            settles
        · simpa [raisedEvents, Step.raised, events] using silent

theorem serves_of_parsing {rest : List Step}
    (formed : Machine.WellFormed config
      ⟨.accepting, machine.data.requested sender datagram, [],
        [.parse datagram.bytes.length]⟩)
    (run : session.Run ⟨.accepting, machine.data.requested sender datagram, [],
      [.parse datagram.bytes.length]⟩ rest next)
    (internal : ∀ step ∈ rest, step.Internal)
    (meets : ∀ step ∈ rest, step.Meets allowed)
    (returned : next.returned = true) :
    Serves allowed machine sender datagram (rest.flatMap Transition.outputs)
        next ∧
      raisedEvents rest =
        [.requestReceived (machine.data.request sender datagram)] := by
  obtain ⟨later, after, rfl, rfl, continues⟩ :=
    parse_of_parsing rfl rfl run returned internal
  obtain ⟨_, stepped, _⟩ := session_run_cons.mp run
  obtain ⟨serves, raised⟩ := serves_of_run (formed.step stepped) continues
    (List.forall_mem_cons.mp internal).2 (List.forall_mem_cons.mp meets).2
    returned
  exact ⟨serves, raised⟩

theorem Machine.WellFormed.of_listening
    (wellFormed : machine.WellFormed config)
    (listens : .listenerReceive ∈ machine.outstanding) :
    machine.state = .accepting ∧
      machine.outstanding = [.listenerReceive] ∧ machine.tasks = [] := by
  have shape := wellFormed.shape
  generalize machine.state = state at shape ⊢
  generalize machine.tasks = tasks at shape ⊢
  generalize machine.outstanding = outstanding at shape listens ⊢
  cases shape with
  | @waiting state operation drives =>
      obtain rfl : Operation.listenerReceive = operation := by
        simpa using listens
      exact ⟨State.eq_accepting drives, rfl, rfl⟩
  | _ => simp at listens

theorem step_accepted (accepts : machine.state = .accepting)
    (listens : machine.outstanding = [.listenerReceive])
    (idle : machine.tasks = []) (sender : Endpoint) (datagram : Datagram) :
    machine.step (.complete (.accepted sender datagram)) =
      some (⟨.accepting, machine.data.requested sender datagram, [],
        (if isMalformed (machine.data.requested sender datagram).receiveBuffer
            datagram.bytes.length then [.process .acceptingFailed]
          else []) ++ [.parse datagram.bytes.length]⟩, []) := by
  have returned : machine.returned = true :=
    returned_iff.mpr ⟨by simp [accepts, State.operation], idle⟩
  obtain ⟨state, data, outstanding, tasks⟩ := machine
  subst accepts listens
  simp [Machine.step, returned, Completion.operation, Completion.start,
    SessionData.requested, SessionData.deliver]
  rfl

theorem Machine.WellFormed.of_accepted {effects : List Effect}
    (wellFormed : machine.WellFormed config)
    (stepped : machine.step (.complete (.accepted sender datagram)) =
      some (next, effects)) :
    machine.state = .accepting ∧
      machine.outstanding = [.listenerReceive] ∧ machine.tasks = [] := by
  cases stepCases stepped with
  | complete settled idle started => exact wellFormed.of_listening started

/-- The handler of an accepted datagram raises the events of
`ProcessEventFromBuffer`, and serves the request in them. -/
theorem Handles.accepted {history : List Step}
    (handles : Handles machine (.accepted sender datagram) history next)
    (allowed : Action → Environment → Prop)
    (wellFormed : machine.WellFormed config)
    (meets : ∀ step ∈ history, step.Meets allowed) :
    Serves allowed machine sender datagram
        (history.flatMap Transition.outputs) next ∧
      raisedEvents history = processEventFromBuffer
        (machine.data.requested sender datagram).receiveBuffer
        datagram.bytes.length := by
  obtain ⟨⟨before, input, outputs, middle⟩, rest, rfl, rfl, internal, run,
    returned⟩ := handles
  obtain ⟨rfl, stepped, continues⟩ := session_run_cons.mp run
  obtain ⟨_, meetsLater⟩ := List.forall_mem_cons.mp meets
  obtain ⟨accepts, listens, idle⟩ := wellFormed.of_accepted stepped
  have formed := wellFormed.step stepped
  rw [step_accepted accepts listens idle] at stepped
  simp only [Option.some.injEq, Prod.mk.injEq] at stepped
  obtain ⟨rfl, rfl⟩ := stepped
  unfold processEventFromBuffer
  by_cases malformed :
      isMalformed (before.data.requested sender datagram).receiveBuffer
        datagram.bytes.length = true
  · simp only [if_pos malformed] at formed continues ⊢
    obtain ⟨later, rfl, parses⟩ := reject_of_acceptingFailed
      (formed.pristine rfl).hasError rfl rfl continues returned internal
    obtain ⟨_, rejected, _⟩ := session_run_cons.mp continues
    obtain ⟨serves, raised⟩ := serves_of_parsing (formed.step rejected) parses
      (List.forall_mem_cons.mp internal).2
      (List.forall_mem_cons.mp meetsLater).2 returned
    exact ⟨serves, congrArg (Event.acceptingFailed :: ·) raised⟩
  · simp only [if_neg malformed] at formed continues ⊢
    obtain ⟨serves, raised⟩ :=
      serves_of_parsing formed continues internal meetsLater returned
    exact ⟨serves, raised⟩

/-- Steps of a running handler up to its return. -/
def Finishes (allowed : Action → Environment → Prop) (machine : Machine)
    (effects : List Effect) (next : Machine) : Prop :=
  ∃ rest : List Step, session.Run machine rest next ∧
    (∀ step ∈ rest, Step.Internal step) ∧
      (∀ step ∈ rest, Step.Meets step allowed) ∧ next.returned = true ∧
        rest.flatMap Transition.outputs = effects

theorem Finishes.cons {middle : Machine} {input : Input}
    {effects : List Effect} (finishes : Finishes allowed middle effects next)
    (stepped : machine.step input = some (middle, []))
    (internal : ∀ completion, input ≠ .complete completion)
    (silent : ∀ row environment, input ≠ .fire row environment) :
    Finishes allowed machine effects next := by
  obtain ⟨rest, run, internalLater, meets, returned, outputs⟩ := finishes
  refine ⟨⟨machine, input, [], middle⟩ :: rest, ⟨rfl, stepped, run⟩,
    List.forall_mem_cons.mpr ⟨internal, internalLater⟩,
    List.forall_mem_cons.mpr ⟨?_, meets⟩, returned, by simp [outputs]⟩
  intro row environment taken
  exact absurd taken (silent row environment)

theorem step_reject {event : Event} {tasks : List Task}
    (waits : machine.state.operation ≠ none)
    (running : machine.tasks = .process event :: tasks)
    (refused : ∀ action target, ¬ Firing machine.data machine.state
      (some event.kind) action target) :
    machine.step .reject = some ({ machine with tasks }, []) := by
  have none : enabledRows machine.state (some event.kind) machine.data =
      [] := by
    rw [List.eq_nil_iff_forall_not_mem]
    intro row enabled
    exact refused _ _ (firing_of_enabled enabled)
  simp [Machine.step, running, settled_iff.mpr waits, none]

theorem step_parse {bytesReceived : Nat} {tasks : List Task}
    (waits : machine.state.operation ≠ none)
    (running : machine.tasks = .parse bytesReceived :: tasks) :
    machine.step .parse = some ({ machine with
      tasks := .process (.requestReceived
        (parseRequest machine.data.receiveBuffer bytesReceived)) :: tasks },
      []) := by
  simp [Machine.step, running, settled_iff.mpr waits]

theorem Serves.finishes {effects : List Effect}
    (serves : Serves allowed machine sender datagram effects next) :
    Finishes allowed ⟨.accepting, machine.data.requested sender datagram, [],
      [.process (.requestReceived (machine.data.request sender datagram))]⟩
        effects next := by
  cases serves with
  | refused refused =>
      let parsed : Machine :=
        ⟨.accepting, machine.data.requested sender datagram, [],
          [.process (.requestReceived
            (machine.data.request sender datagram))]⟩
      have waits : parsed.state.operation ≠ none := by
        simp [parsed, State.operation]
      have stepped : parsed.step .reject = some (
          ⟨.accepting, machine.data.requested sender datagram, [], []⟩,
            []) := by
        apply step_reject waits rfl
        exact refused
      have finished : Finishes allowed
          ⟨.accepting, machine.data.requested sender datagram, [], []⟩ []
          ⟨.accepting, machine.data.requested sender datagram, [], []⟩ :=
        ⟨[], rfl, by simp, by simp, by rfl, rfl⟩
      exact finished.cons stepped (by simp) (by simp)
  | served environment permitted firing settles =>
      obtain ⟨rest, run, internal, meets, returned, rfl⟩ := settles.exists_run
      obtain ⟨row, rfl, fired⟩ := exists_step_of_firing
        ⟨.accepting, machine.data.requested sender datagram, [],
          [.process (.requestReceived
            (machine.data.request sender datagram))]⟩ environment
        (some (.requestReceived (machine.data.request sender datagram)))
        (fun _ => by rfl) rfl rfl firing rfl
      refine ⟨⟨_, .fire row environment, _, _⟩ :: rest, ⟨rfl, fired, run⟩,
        List.forall_mem_cons.mpr ⟨fun completion => by simp, internal⟩,
        List.forall_mem_cons.mpr ⟨?_, meets⟩, returned, by simp⟩
      intro other answers taken
      simp only [Input.fire.injEq] at taken
      obtain ⟨rfl, rfl⟩ := taken
      exact permitted

theorem Serves.exists_handles {effects : List Effect}
    (serves : Serves allowed machine sender datagram effects next)
    (wellFormed : machine.WellFormed config)
    (listens : .listenerReceive ∈ machine.outstanding) :
    ∃ history, Handles machine (.accepted sender datagram) history next ∧
      history.flatMap Transition.outputs = effects ∧
        ∀ step ∈ history, Step.Meets step allowed := by
  obtain ⟨accepts, outstanding, idle⟩ := wellFormed.of_listening listens
  have started := step_accepted accepts outstanding idle sender datagram
  have formed := wellFormed.step started
  have parsed : Finishes allowed
      ⟨.accepting, machine.data.requested sender datagram, [],
        [.parse datagram.bytes.length]⟩ effects next :=
    serves.finishes.cons (step_parse (by simp [State.operation]) rfl)
      (by simp) (by simp)
  have finished : Finishes allowed
      ⟨.accepting, machine.data.requested sender datagram, [],
        (if isMalformed (machine.data.requested sender datagram).receiveBuffer
            datagram.bytes.length then [.process .acceptingFailed]
          else []) ++ [.parse datagram.bytes.length]⟩ effects next := by
    split
    · refine parsed.cons (step_reject (by simp [State.operation]) rfl ?_)
        (by simp) (by simp)
      intro action target firing
      have clean := (formed.pristine rfl).hasError
      have error := firing.hasError_of_acceptingFailed
      simp [clean] at error
    · exact parsed
  obtain ⟨rest, run, internal, meets, returned, outputs⟩ := finished
  refine ⟨⟨_, .complete (.accepted sender datagram), _, _⟩ :: rest,
    ⟨_, _, rfl, rfl, internal, ⟨rfl, started, run⟩, returned⟩,
    by simp [outputs], List.forall_mem_cons.mpr ⟨?_, meets⟩⟩
  intro row environment taken
  simp at taken

theorem exists_serves (environment : Environment) (machine : Machine)
    (sender : Endpoint) (datagram : Datagram) :
    ∃ effects next, Serves (fun _ other => other = environment) machine
      sender datagram effects next := by
  by_cases refused : ∀ action target,
      ¬ Firing (machine.data.requested sender datagram) .accepting
        (some .requestReceived) action target
  · exact ⟨_, _, .refused refused⟩
  · simp only [not_forall, not_not] at refused
    obtain ⟨action, target, firing⟩ := refused
    obtain ⟨effects, next, settles⟩ := exists_settles environment target
      (action.run environment
        (some (.requestReceived (machine.data.request sender datagram)))
        (machine.data.requested sender datagram)).1
    exact ⟨_, _, .served environment rfl firing settles⟩

theorem Firing.replies {data : SessionData} {source target : State}
    {action : Action} (firing : Firing data source none action target)
    (replies : source.replies = true) : target.replies = true := by
  cases firing with
  | restart => simp [State.replies] at replies
  | _ => rfl

theorem Settles.of_replies {state : State} {data : SessionData}
    {effects : List Effect}
    (settles : Settles allowed state data effects next)
    (replies : state.replies = true) :
    next.state.operation = some .send ∧
      effects.filterMap Effect.packet =
        [(next.data.outgoing, next.data.agreedRemoteEndpoint)] := by
  induction settles with
  | @waits state data waits =>
      cases state <;> simp [State.replies, State.operation] at replies waits
      all_goals exact ⟨rfl, rfl⟩
  | passes environment permitted firing settles ih =>
      obtain ⟨sends, packets⟩ := ih (firing.replies replies)
      refine ⟨sends, ?_⟩
      rw [List.filterMap_append, packets,
        run_filterMap (fun _ _ => rfl) (fun _ => rfl) rfl rfl rfl]
      rfl

theorem Serves.packets {effects : List Effect}
    (serves : Serves allowed machine sender datagram effects next) :
    (∀ action target,
        ¬ Firing (machine.data.requested sender datagram) .accepting
          (some .requestReceived) action target) ∧ effects = [] ∨
      next.state.operation = some .send ∧
        effects.filterMap Effect.packet =
          [(next.data.outgoing, next.data.agreedRemoteEndpoint)] := by
  cases serves with
  | refused refused => exact .inl ⟨refused, rfl⟩
  | @served action target environment effects next permitted firing settles =>
      have replies : target.replies = true := by
        rcases firing.of_requestReceived with ⟨_, _, rfl⟩ | ⟨_, _, rfl⟩ <;> rfl
      obtain ⟨sends, packets⟩ := settles.of_replies replies
      right
      refine ⟨sends, ?_⟩
      rw [List.filterMap_append, packets,
        run_filterMap (fun _ _ => rfl) (fun _ => rfl) rfl rfl rfl]
      rfl

end Handlers

section Malformed

variable {config : Config} {machine next : Machine} {sender : Endpoint}
  {datagram : Datagram} {buffer : Buffer UInt8} {bytesReceived : Nat}

theorem isMalformed_iff :
    isMalformed buffer bytesReceived = true ↔
      Malformed buffer bytesReceived := by
  rw [isMalformed, Bool.or_eq_true, decide_eq_true_iff, bne_iff_ne]
  rfl

theorem not_malformed_iff :
    ¬ Malformed buffer bytesReceived ↔
      4 ≤ bytesReceived ∧ buffer (bytesReceived - 1) = 0 := by
  simp [Malformed]

/-- A malformed datagram raises a second event. -/
theorem processEventFromBuffer_of_malformed
    (malformed : Malformed buffer bytesReceived) :
    processEventFromBuffer buffer bytesReceived =
      [.acceptingFailed,
        .requestReceived (parseRequest buffer bytesReceived)] := by
  rw [processEventFromBuffer, if_pos (isMalformed_iff.mpr malformed)]
  rfl

theorem processEventFromBuffer_of_not_malformed
    (proper : ¬ Malformed buffer bytesReceived) :
    processEventFromBuffer buffer bytesReceived =
      [.requestReceived (parseRequest buffer bytesReceived)] := by
  rw [processEventFromBuffer, if_neg (mt isMalformed_iff.mp proper)]
  rfl

theorem eventsAsIntended_iff :
    EventsAsIntended buffer bytesReceived ↔
      4 ≤ bytesReceived ∧ buffer (bytesReceived - 1) = 0 := by
  rw [← not_malformed_iff]
  constructor
  · intro intended malformed
    have events := (intended.malformed malformed).1
    rw [processEventFromBuffer_of_malformed malformed] at events
    simp at events
  · intro proper
    exact ⟨fun malformed => absurd malformed proper,
      fun _ => ⟨_, processEventFromBuffer_of_not_malformed proper⟩⟩

/-- A listening session has a cleared receive buffer, so that it holds the
datagram and nothing else. -/
theorem Machine.WellFormed.receiveBuffer_requested
    (wellFormed : machine.WellFormed config)
    (listens : .listenerReceive ∈ machine.outstanding) (sender : Endpoint)
    (datagram : Datagram) :
    (machine.data.requested sender datagram).receiveBuffer =
      ofList 0 datagram.bytes := by
  obtain ⟨accepts, _⟩ := wellFormed.of_listening listens
  have rested := wellFormed.rested
    (.inr ⟨accepts, List.ne_nil_of_mem listens⟩)
  rw [SessionData.Rested] at rested
  rw [rested]
  rfl

theorem ofList_last (proper : 4 ≤ datagram.bytes.length) :
    ofList 0 datagram.bytes (datagram.bytes.length - 1) = 0 ↔
      datagram.bytes.getLast? = some 0 := by
  have inside : datagram.bytes.length - 1 < datagram.bytes.length := by omega
  rw [ofList, write_inside (Nat.zero_le _) (by simpa using inside),
    List.getLast?_eq_getElem?]
  simp only [Nat.sub_zero, List.getElem?_eq_getElem inside,
    Option.some.injEq]

/-- Some handler of a malformed datagram runs, and none of them stops at
`AcceptingFailed`. -/
theorem handledAsIntended_iff (wellFormed : machine.WellFormed config)
    (listens : .listenerReceive ∈ machine.outstanding) :
    (∀ history next, Handles machine (.accepted sender datagram) history
        next → HandledAsIntended datagram history) ↔
      4 ≤ datagram.bytes.length ∧ datagram.bytes.getLast? = some 0 := by
  have raised : ∀ history next,
      Handles machine (.accepted sender datagram) history next →
        raisedEvents history = processEventFromBuffer
          (ofList 0 datagram.bytes) datagram.bytes.length := by
    intro history next handles
    rw [← wellFormed.receiveBuffer_requested listens sender datagram]
    exact (handles.accepted (fun _ _ => True) wellFormed
      (by simp [Step.Meets])).2
  have condition : (4 ≤ datagram.bytes.length ∧
      datagram.bytes.getLast? = some 0) ↔
        ¬ Malformed (ofList 0 datagram.bytes) datagram.bytes.length := by
    rw [not_malformed_iff]
    exact and_congr_right fun proper => (ofList_last proper).symm
  rw [condition]
  constructor
  · intro intended malformed
    obtain ⟨effects, next, serves⟩ :=
      exists_serves {} machine sender datagram
    obtain ⟨history, handles, _⟩ := serves.exists_handles wellFormed listens
    have events := ((intended history next handles).malformed malformed).1
    rw [raised history next handles,
      processEventFromBuffer_of_malformed malformed] at events
    simp at events
  · intro proper history next handles
    have events := raised history next handles
    rw [processEventFromBuffer_of_not_malformed proper] at events
    exact ⟨fun malformed => absurd malformed proper, fun _ => ⟨_, events⟩⟩

theorem Machine.WellFormed.exists_requested_firing
    (wellFormed : machine.WellFormed config)
    (listens : .listenerReceive ∈ machine.outstanding) :
    (∃ action target, Firing (machine.data.requested sender datagram)
        .accepting (some .requestReceived) action target) ↔
      Packet.opCode datagram.bytes = .readRequest ∨
        Packet.opCode datagram.bytes = .writeRequest := by
  obtain ⟨accepts, outstanding, idle⟩ := wellFormed.of_listening listens
  have rested := wellFormed.rested
    (.inr ⟨accepts, List.ne_nil_of_mem listens⟩)
  have opcode : (machine.data.requested sender datagram).receivedOpCd =
      Packet.opCode datagram.bytes :=
    receivedOpCd_accepted rested sender datagram
  have clean : (machine.data.requested sender datagram).hasError = false :=
    (wellFormed.pristine accepts).hasError
  constructor
  · rintro ⟨action, target, firing⟩
    rcases firing.of_requestReceived with ⟨read, _⟩ | ⟨write, _⟩
    · left
      simpa [SessionData.hasReadRequestReceived, opcode] using read
    · right
      simpa [SessionData.hasWriteRequestReceived, opcode] using write
  · rintro (read | write)
    · exact ⟨_, _, .acceptRead clean
        (by simp [SessionData.hasReadRequestReceived, opcode, read])⟩
    · exact ⟨_, _, .acceptWrite clean
        (by simp [SessionData.hasWriteRequestReceived, opcode, write])⟩

theorem silent_iff (wellFormed : machine.WellFormed config)
    (listens : .listenerReceive ∈ machine.outstanding) :
    (∀ history next, Handles machine (.accepted sender datagram) history
        next → history.flatMap Transition.outputs = []) ↔
      Packet.opCode datagram.bytes ≠ .readRequest ∧
        Packet.opCode datagram.bytes ≠ .writeRequest := by
  rw [← not_or, ← wellFormed.exists_requested_firing listens]
  constructor
  · rintro silent ⟨action, target, firing⟩
    obtain ⟨effects, next, serves⟩ :=
      exists_serves {} machine sender datagram
    obtain ⟨history, handles, outputs, _⟩ :=
      serves.exists_handles wellFormed listens
    rcases serves.packets with ⟨refused, _⟩ | ⟨_, packets⟩
    · exact refused action target firing
    · rw [← outputs, silent history next handles] at packets
      simp at packets
  · intro unanswered history next handles
    obtain ⟨serves, _⟩ := handles.accepted (fun _ _ => True) wellFormed
      (by simp [Step.Meets])
    generalize history.flatMap Transition.outputs = effects at serves ⊢
    cases serves with
    | refused => rfl
    | served environment permitted firing =>
        exact absurd ⟨_, _, firing⟩ unanswered

end Malformed

/-- A malformed datagram is handled as intended if and only if it is not
malformed: `AcceptingFailed` is always followed by `RequestReceived`.  It
then opens files and is answered as any other datagram with its opcode. -/
theorem malformed_request_iff (config : Config) (machine : Machine)
    (past : List Step) (run : Reaches config past machine)
    (listens : .listenerReceive ∈ machine.outstanding) (sender : Endpoint)
    (datagram : Datagram) :
    (∀ buffer bytesReceived, EventsAsIntended buffer bytesReceived ↔
      4 ≤ bytesReceived ∧ buffer (bytesReceived - 1) = 0) ∧
    ((∀ history next, Handles machine (.accepted sender datagram) history
        next → HandledAsIntended datagram history) ↔
      4 ≤ datagram.bytes.length ∧ datagram.bytes.getLast? = some 0) ∧
    ((∀ history next, Handles machine (.accepted sender datagram) history
        next → history.flatMap Transition.outputs = []) ↔
      Packet.opCode datagram.bytes ≠ .readRequest ∧
        Packet.opCode datagram.bytes ≠ .writeRequest) :=
  ⟨fun _ _ => eventsAsIntended_iff,
    handledAsIntended_iff run.wellFormed listens,
    silent_iff run.wellFormed listens⟩

/-- A request of the client for a file named `f`, with a byte behind it that
is not NUL. -/
def unterminatedRequest (opcode : OpCode) : Datagram where
  bytes := (requestOf opcode).bytes ++ [120]
  fits := by simp [requestOf, asciiBytes, kOctetMode]

theorem malformed_request_unterminated :
    ¬ (∀ history next, Handles (Machine.started .loopback)
        (.accepted .client (unterminatedRequest .writeRequest)) history
        next → HandledAsIntended (unterminatedRequest .writeRequest)
          history) := by
  rw [(malformed_request_iff .loopback (Machine.started .loopback) [] rfl
    (by decide) .client (unterminatedRequest .writeRequest)).2.1]
  decide

/-- Its last byte is not NUL, and yet the file is truncated and the request is
granted. -/
theorem unterminated_request_granted :
    ∃ history next,
      Handles (Machine.started .loopback)
        (.accepted .client (unterminatedRequest .writeRequest)) history
        next ∧
      Malformed (ofList 0 (unterminatedRequest .writeRequest).bytes)
        (unterminatedRequest .writeRequest).bytes.length ∧
      ¬ EventsAsIntended (ofList 0 (unterminatedRequest .writeRequest).bytes)
        (unterminatedRequest .writeRequest).bytes.length ∧
      ¬ HandledAsIntended (unterminatedRequest .writeRequest) history ∧
      .openFile (asciiBytes ['f']) true ∈
        history.flatMap Transition.outputs ∧
      sentPackets history = [(Packet.ackPacket 0, .client)] := by
  have firing : Firing ((Machine.started .loopback).data.requested .client
      (unterminatedRequest .writeRequest)) .accepting
        (some .requestReceived) .initServeWriteRequest
        .writeRequestReceived :=
    .acceptWrite (by decide) (by decide +kernel)
  have granted : Firing (Action.run {} (some (.requestReceived
      ((Machine.started .loopback).data.request .client
        (unterminatedRequest .writeRequest))))
      ((Machine.started .loopback).data.requested .client
        (unterminatedRequest .writeRequest)) .initServeWriteRequest).1
      .writeRequestReceived none .formAckPacket .sendingAck :=
    .grantWrite (by decide +kernel)
  have serves : Serves (fun _ _ => True) (Machine.started .loopback) .client
      (unterminatedRequest .writeRequest) _ _ :=
    .served {} trivial firing (.passes {} trivial granted
      (.waits (by decide)))
  obtain ⟨history, handles, outputs, _⟩ := serves.exists_handles
    (Machine.started_wellFormed .loopback) (by decide)
  have malformed : Malformed
      (ofList 0 (unterminatedRequest .writeRequest).bytes)
      (unterminatedRequest .writeRequest).bytes.length := by
    rw [← isMalformed_iff]
    decide +kernel
  have packets : sentPackets history = [(Packet.ackPacket 0, .client)] := by
    rw [sentPackets, outputs]
    decide +kernel
  refine ⟨history, _, handles, malformed, ?_, ?_, ?_, packets⟩
  · rw [eventsAsIntended_iff, ← not_malformed_iff, not_not]
    exact malformed
  · intro intended
    have silent := (intended.malformed malformed).2.1
    simp [packets] at silent
  · rw [outputs]
    decide +kernel

end MsmTftp
