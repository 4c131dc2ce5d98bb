import MsmTftp.SessionAction

/-!
# States with their entry and exit actions, and the transition tables

The tables list the rows in the order of the source.  A row is data: its guard
is an expression over the guard functors and its action names an action
functor.
-/

namespace MsmTftp

open CellBuffer

inductive State
  | accepting
  | writeRequestReceived
  | sendingAck
  | waitingForData
  | dataWritten
  | readRequestReceived
  | dataRead
  | sendingData
  | waitingForAck
  | sendingError
  | resetted
  deriving DecidableEq, Repr

section EntryAndExit

/-- `EnterAccepting` clears the receive buffer and listens. -/
def enterAccepting (data : SessionData) : Outcome :=
  ({ data with receiveBuffer := fill 0 },
    if data.listenerSocket then [.listenerReceive] else [])

def enterSending (data : SessionData) : Outcome :=
  (data, [.sendTo data.outgoing data.agreedRemoteEndpoint])

def enterReceive (data : SessionData) : Outcome :=
  (data, [.receiveFrom, .startTimer data.timeOut])

/-- `ExitSending` and `ExitReceive`.  Cancelling a socket that is not open
throws, and the running handler does not return. -/
def cancelOperations (data : SessionData) : Option (List Effect) :=
  if data.socketOpen then some [.cancelSocket, .cancelTimer] else none

namespace State

def entry : State → SessionData → Outcome
  | accepting => enterAccepting
  | sendingAck | sendingData | sendingError => enterSending
  | waitingForData | waitingForAck => enterReceive
  | writeRequestReceived | dataWritten | readRequestReceived | dataRead
  | resetted => fun data => (data, [])

def exit : State → SessionData → Option (List Effect)
  | sendingAck | sendingData | sendingError => cancelOperations
  | waitingForData | waitingForAck => cancelOperations
  | accepting | writeRequestReceived | dataWritten | readRequestReceived
  | dataRead | resetted => fun _ => some []

end State

end EntryAndExit

inductive EventKind
  | requestReceived
  | acceptingFailed
  | packetSent
  | packetReceived
  | timedOut
  deriving DecidableEq, Repr

inductive Event
  | requestReceived (request : RequestReceived)
  | acceptingFailed
  | packetSent
  | packetReceived
  | timedOut
  deriving DecidableEq, Repr

def Event.kind : Event → EventKind
  | requestReceived _ => .requestReceived
  | acceptingFailed => .acceptingFailed
  | packetSent => .packetSent
  | packetReceived => .packetReceived
  | timedOut => .timedOut

theorem Event.eq_packetReceived {event : Option Event}
    (kind : event.map Event.kind = some .packetReceived) :
    event = some .packetReceived := by
  match event, kind with
  | some .packetReceived, _ => rfl

theorem Event.eq_requestReceived {event : Option Event}
    (kind : event.map Event.kind = some .requestReceived) :
    ∃ request, event = some (.requestReceived request) := by
  match event, kind with
  | some (.requestReceived request), _ => exact ⟨request, rfl⟩

inductive Action
  | none
  | formAckPacket
  | formDataPacket
  | formErrorPacket
  | formOackPacket
  | formProtocolErrorPacket
  | initServeReadRequest
  | initServeWriteRequest
  | reset
  | resetTimeOut
  | timeOut
  | writeData
  deriving DecidableEq, Repr

/-- Run an action on the event that fires its row.  Only request events have
the fields the request actions read. -/
def Action.run (environment : Environment) (event : Option Event)
    (data : SessionData) : Action → Outcome
  | none => (data, [])
  | formAckPacket => (MsmTftp.formAckPacket data, [])
  | formDataPacket => (MsmTftp.formDataPacket environment data, [])
  | formErrorPacket => (MsmTftp.formErrorPacket data, [])
  | formOackPacket => (MsmTftp.formOackPacket data, [])
  | formProtocolErrorPacket => (MsmTftp.formProtocolErrorPacket data, [])
  | initServeReadRequest =>
      match event with
      | some (.requestReceived request) =>
          MsmTftp.initServeReadRequest environment request data
      | _ => (data, [])
  | initServeWriteRequest =>
      match event with
      | some (.requestReceived request) =>
          MsmTftp.initServeWriteRequest environment request data
      | _ => (data, [])
  | reset => resetSession environment data
  | resetTimeOut => (MsmTftp.resetTimeOut data, [])
  | timeOut => (countTimeOut data, [])
  | writeData => MsmTftp.writeData environment data

/-- The action reads a block from the file or writes one to it. -/
def Action.usesStream : Action → Bool
  | formDataPacket | writeData => true
  | _ => false

/-- `Row<Source, Event, Target, Action, Guard>`; the event `none` is the
completion event. -/
structure Row where
  source : State
  event : Option EventKind
  target : State
  action : Action
  guard : Guard
  deriving DecidableEq, Repr

namespace Guard

def hasFinalAckReceived : Guard :=
  and [hasAckReceived, not isOldAck, not hasMoreToSend]

def hasIntermediateAckReceived : Guard :=
  and [hasAckReceived, not isOldAck, hasMoreToSend]

def hasOldAckReceived : Guard :=
  and [hasAckReceived, isOldAck]

end Guard

open Guard in
def commonTransitionTable : List Row :=
  [⟨.sendingError, some .packetSent, .resetted, .reset, always⟩,
    ⟨.resetted, none, .accepting, .none, always⟩,
    ⟨.accepting, some .acceptingFailed, .resetted, .reset, hasError⟩]

open Guard in
def writeRequestTransitionTable : List Row :=
  [⟨.accepting, some .requestReceived, .writeRequestReceived,
      .initServeWriteRequest, and [not hasError, hasWriteRequestReceived]⟩,
    ⟨.writeRequestReceived, none, .sendingAck, .formAckPacket,
      not hasError⟩,
    ⟨.writeRequestReceived, none, .sendingError, .formErrorPacket,
      hasError⟩,
    ⟨.sendingAck, some .packetSent, .waitingForData, .none, always⟩,
    ⟨.waitingForData, some .timedOut, .sendingAck, .timeOut, canRetry⟩,
    ⟨.waitingForData, some .timedOut, .resetted, .reset, not canRetry⟩,
    ⟨.waitingForData, some .packetReceived, .sendingError,
      .formProtocolErrorPacket,
      and [fromAgreedEndpoint, not hasDataReceived]⟩,
    ⟨.waitingForData, some .packetReceived, .waitingForAck, .none,
      or (not fromAgreedEndpoint) (and [hasDataReceived, isOldData])⟩,
    ⟨.waitingForData, some .packetReceived, .dataWritten, .writeData,
      and [fromAgreedEndpoint, hasDataReceived, not isOldData]⟩,
    ⟨.dataWritten, none, .sendingAck, .formAckPacket, not hasError⟩,
    ⟨.dataWritten, none, .sendingError, .formErrorPacket, hasError⟩]

open Guard in
def readRequestTransitionTable : List Row :=
  [⟨.accepting, some .requestReceived, .readRequestReceived,
      .initServeReadRequest, and [not hasError, hasReadRequestReceived]⟩,
    ⟨.readRequestReceived, none, .dataRead, .formDataPacket,
      not (or hasError hasOptions)⟩,
    ⟨.readRequestReceived, none, .dataRead, .formOackPacket, hasOptions⟩,
    ⟨.readRequestReceived, none, .sendingError, .formErrorPacket, hasError⟩,
    ⟨.dataRead, none, .sendingData, .resetTimeOut, not hasError⟩,
    ⟨.dataRead, none, .sendingError, .formErrorPacket, hasError⟩,
    ⟨.sendingData, some .packetSent, .waitingForAck, .none, always⟩,
    ⟨.waitingForAck, some .timedOut, .sendingData, .timeOut, canRetry⟩,
    ⟨.waitingForAck, some .timedOut, .resetted, .reset, not canRetry⟩,
    ⟨.waitingForAck, some .packetReceived, .sendingError,
      .formProtocolErrorPacket,
      and [fromAgreedEndpoint, not hasAckReceived]⟩,
    ⟨.waitingForAck, some .packetReceived, .waitingForAck, .none,
      or (not fromAgreedEndpoint) hasOldAckReceived⟩,
    ⟨.waitingForAck, some .packetReceived, .dataRead, .formDataPacket,
      and [fromAgreedEndpoint, hasIntermediateAckReceived]⟩,
    ⟨.waitingForAck, some .packetReceived, .resetted, .reset,
      or hasErrReceived (and [fromAgreedEndpoint, hasFinalAckReceived])⟩]

/-- The `joint_view` the server instantiates its sessions with. -/
def jointTransitionTable : List Row :=
  commonTransitionTable ++
    (writeRequestTransitionTable ++ readRequestTransitionTable)

/-- The rows Boost.MSM may fire for an event in a state: any row of the table
whose guard is true. -/
def enabledRows (state : State) (event : Option EventKind)
    (data : SessionData) : List Row :=
  jointTransitionTable.filter fun row =>
    decide (row.source = state) && decide (row.event = event) &&
      row.guard.eval data

theorem mem_enabledRows {state : State} {event : Option EventKind}
    {data : SessionData} {row : Row} :
    row ∈ enabledRows state event data ↔
      row ∈ jointTransitionTable ∧ row.source = state ∧
        row.event = event ∧ row.guard.eval data = true := by
  simp [enabledRows, and_assoc]

end MsmTftp
