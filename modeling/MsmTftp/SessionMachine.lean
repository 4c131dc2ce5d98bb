import MsmTftp.SessionState
import MsmTftp.TransitionSystem

/-!
# A session as an input-driven transition system

A completion handler takes the result of an asynchronous operation, raises
events and runs each of them to completion: one enabled row for the event, and
then completion rows while one is enabled.  Every firing of a row is one step
here, so the states a handler only passes through are visible.

The inputs carry everything the session does not determine: the order and the
results of completions, the row taken when several are enabled, and the
answers of the operating system.  A time-out reaches the machine as a receive
that its timer cancelled, so the completions cover it.
-/

namespace MsmTftp

open CellBuffer TransitionSystem

/-- The asynchronous operations whose handlers raise events. -/
inductive Operation
  | listenerReceive
  | send
  | receive
  deriving DecidableEq, Repr

/-- The operation an effect starts. -/
def Effect.operation : Effect → Option Operation
  | listenerReceive => some .listenerReceive
  | sendTo _ _ => some .send
  | receiveFrom => some .receive
  | _ => none

/-- The payload of a UDP datagram over IPv4. -/
structure Datagram where
  bytes : Bytes
  fits : bytes.length ≤ 65507

/-- The result an asynchronous operation completes with. -/
inductive Completion
  | accepted (sender : Endpoint) (datagram : Datagram)
  | acceptFailed
  | sent (failed : Bool)
  | received (sender : Endpoint) (datagram : Datagram)
  | receiveFailed

def Completion.operation : Completion → Operation
  | accepted _ _ | acceptFailed => .listenerReceive
  | sent _ => .send
  | received _ _ | receiveFailed => .receive

/-- What a running handler has still to do. -/
inductive Task
  | process (event : Event)
  | parse (bytesReceived : Nat)
  deriving DecidableEq, Repr

/-- `outstanding` holds the operations started and not completed, `tasks` the
rest of the running handler. -/
structure Machine where
  state : State
  data : SessionData
  outstanding : List Operation
  tasks : List Task

/-- The kernel writes a datagram to the front of the receive buffer. -/
def SessionData.deliver (data : SessionData) (bytes : Bytes) : SessionData :=
  { data with
    receiveBuffer := write data.receiveBuffer 0 bytes
    receivedPacket := bytes.length }

/-- The beginning of a completion handler: the data it stores, the rest of its
work and its effects.  The handler of the listener raises `AcceptingFailed`
for a malformed datagram and goes on to parse it. -/
def Completion.start (data : SessionData) :
    Completion → SessionData × List Task × List Effect
  | accepted sender datagram =>
      let data :=
        { data.deliver datagram.bytes with agreedRemoteEndpoint := sender }
      (data,
        (if isMalformed data.receiveBuffer datagram.bytes.length then
            [.process .acceptingFailed]
          else []) ++ [.parse datagram.bytes.length], [])
  | acceptFailed =>
      ({ data with receivedPacket := 0 }, [.process .acceptingFailed], [])
  | sent _ => (data, [.process .packetSent], [])
  | received sender datagram =>
      ({ data.deliver datagram.bytes with lastRemoteEndpoint := sender },
        [.process .packetReceived], [.cancelTimer])
  | receiveFailed =>
      ({ data with receivedPacket := 0 }, [.process .timedOut], [])

/-- Exit, action and entry of a row; `none` when the exit action throws. -/
def Row.fire (row : Row) (environment : Environment) (event : Option Event)
    (data : SessionData) : Option Outcome :=
  (row.source.exit data).map fun exitEffects =>
    let (data, actionEffects) := row.action.run environment event data
    let (data, entryEffects) := row.target.entry data
    (data, exitEffects ++ actionEffects ++ entryEffects)

namespace Machine

/-- No completion row is enabled. -/
def settled (machine : Machine) : Bool :=
  (enabledRows machine.state none machine.data).isEmpty

/-- Every handler has returned. -/
def returned (machine : Machine) : Bool :=
  machine.settled && machine.tasks.isEmpty

def fire (machine : Machine) (row : Row) (environment : Environment)
    (event : Option Event) (tasks : List Task) :
    Option (Machine × List Effect) :=
  (row.fire environment event machine.data).map fun outcome =>
    ({ state := row.target
       data := outcome.1
       outstanding :=
         machine.outstanding ++ outcome.2.filterMap Effect.operation
       tasks }, outcome.2)

end Machine

/-- The steps of a session. -/
inductive Input
  /-- The handler of an outstanding operation starts. -/
  | complete (completion : Completion)
  /-- The handler of the listener parses the request. -/
  | parse
  /-- A row fires for the completion event or for the event being
  processed. -/
  | fire (row : Row) (environment : Environment)
  /-- No guard is true for the event being processed. -/
  | reject

def Machine.step (machine : Machine) :
    Input → Option (Machine × List Effect)
  | .complete completion =>
      if machine.returned ∧ completion.operation ∈ machine.outstanding then
        let (data, tasks, effects) := completion.start machine.data
        some ({ machine with
            data
            tasks
            outstanding := machine.outstanding.erase completion.operation },
          effects)
      else none
  | .parse =>
      match machine.tasks with
      | .parse bytesReceived :: tasks =>
          if machine.settled then
            let request :=
              parseRequest machine.data.receiveBuffer bytesReceived
            some ({ machine with
              tasks := .process (.requestReceived request) :: tasks }, [])
          else none
      | _ => none
  | .fire row environment =>
      match row.event, machine.tasks with
      | none, tasks =>
          if row ∈ enabledRows machine.state none machine.data then
            machine.fire row environment none tasks
          else none
      | some kind, .process event :: tasks =>
          if machine.settled ∧ event.kind = kind ∧
              row ∈ enabledRows machine.state (some kind) machine.data then
            machine.fire row environment (some event) tasks
          else none
      | _, _ => none
  | .reject =>
      match machine.tasks with
      | .process event :: tasks =>
          if machine.settled ∧
              enabledRows machine.state (some event.kind) machine.data = []
          then some ({ machine with tasks }, [])
          else none
      | _ => none

/-- The transition system of a session. -/
def session : System Machine Input Effect where
  step := Machine.step

abbrev Step := Transition Machine Input Effect

theorem session_run_cons {start finish before after : Machine}
    {input : Input} {outputs : List Effect} {history : List Step} :
    session.Run start (⟨before, input, outputs, after⟩ :: history) finish ↔
      before = start ∧ before.step input = some (after, outputs) ∧
        session.Run after history finish :=
  Iff.rfl

/-- A session that was configured and started: it has entered `Accepting`. -/
def Machine.started (config : Config) : Machine :=
  let (data, effects) := State.accepting.entry (SessionData.fresh config)
  { state := .accepting
    data
    outstanding := effects.filterMap Effect.operation
    tasks := [] }

/-- Runs of a session from its start. -/
def Reaches (config : Config) (history : List Step) (machine : Machine) :
    Prop :=
  session.Run (Machine.started config) history machine

def Reachable (config : Config) (machine : Machine) : Prop :=
  ∃ history, Reaches config history machine

/-- A live listener on the loopback address. -/
def Config.loopback : Config where
  listenerSocket := true
  localAddress := 2130706433
  rootPath := []

/-- A peer on the same host. -/
def Endpoint.client : Endpoint where
  address := 2130706433
  port := 2000

namespace Step

/-- The step fires a row with this action. -/
def Fires (step : Step) (action : Action) : Prop :=
  ∃ row environment, step.input = .fire row environment ∧
    row.action = action

/-- The step belongs to the handler that is already running. -/
def Internal (step : Step) : Prop :=
  ∀ completion, step.input ≠ .complete completion

end Step

/-- The packets handed to `async_send_to`, with their receivers. -/
def Effect.packet : Effect → Option (Bytes × Endpoint)
  | sendTo packet receiver => some (packet, receiver)
  | _ => none

/-- The bytes the file stream took. -/
def Effect.written : Effect → Option Bytes
  | writeFile bytes => some bytes
  | _ => none

/-- The duration of the wait an effect starts. -/
def Effect.wait : Effect → Option Nat
  | startTimer duration => some duration
  | _ => none

/-- The effect reads or writes a file. -/
def Effect.touchesFile : Effect → Bool
  | openFile _ _ | writeFile _ | closeFile => true
  | _ => false

/-- The packets a history sends. -/
def sentPackets (history : List Step) : List (Bytes × Endpoint) :=
  (history.flatMap Transition.outputs).filterMap Effect.packet

/-- The blocks a history writes to the file. -/
def writtenBlocks (history : List Step) : List Bytes :=
  (history.flatMap Transition.outputs).filterMap Effect.written

theorem sentPackets_concat (history : List Step) (step : Step) :
    sentPackets (history ++ [step]) =
      sentPackets history ++ step.outputs.filterMap Effect.packet := by
  simp [sentPackets]

theorem writtenBlocks_concat (history : List Step) (step : Step) :
    writtenBlocks (history ++ [step]) =
      writtenBlocks history ++ step.outputs.filterMap Effect.written := by
  simp [writtenBlocks]

/-- The steps of the handler of one completion, up to its return. -/
def Handles (machine : Machine) (completion : Completion)
    (history : List Step) (next : Machine) : Prop :=
  ∃ first rest, history = first :: rest ∧
    first.input = .complete completion ∧ (∀ step ∈ rest, step.Internal) ∧
      session.Run machine history next ∧ next.returned = true

end MsmTftp
