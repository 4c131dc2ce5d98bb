import MsmTftp.SessionData

/-!
# Guards

Every guard functor of the source is a Boolean function of the session data.
The transition tables combine them as template arguments, so guard expressions
are syntax here as well and are evaluated as `Or`, `And` and `Not` do.

The header guards read four bytes of the receive buffer whatever the length of
the packet in it.
-/

namespace MsmTftp

namespace SessionData

/-- `HeaderView::FromBuffer(fsm.received_packet_).OpCd()`. -/
def receivedOpCd (data : SessionData) : OpCode :=
  HeaderView.opCd data.receiveBuffer

/-- `HeaderView::FromBuffer(fsm.received_packet_).Word()`. -/
def receivedWord (data : SessionData) : UInt16 :=
  HeaderView.word data.receiveBuffer

def canRetry (data : SessionData) : Bool :=
  data.resendCount < 3

def fromAgreedEndpoint (data : SessionData) : Bool :=
  data.lastRemoteEndpoint == data.agreedRemoteEndpoint

def hasAckReceived (data : SessionData) : Bool :=
  data.receivedPacket == HeaderView.size &&
    data.receivedOpCd == .acknowledgment &&
    data.receivedWord.toNat ≤ data.lastSentBlock

def hasDataReceived (data : SessionData) : Bool :=
  HeaderView.size ≤ data.receivedPacket &&
    data.receivedOpCd == .data &&
    data.lastRemoteEndpoint == data.agreedRemoteEndpoint

def hasErrReceived (data : SessionData) : Bool :=
  HeaderView.size < data.receivedPacket &&
    data.receivedOpCd == .error

def hasError (data : SessionData) : Bool :=
  data.lastErrorCode.isSome

def hasMoreToSend (data : SessionData) : Bool :=
  data.lastBlockSize == data.agreedBlockSize || data.lastSentBlock == 0

def hasOptions (data : SessionData) : Bool :=
  data.useBlockSizeOption || data.useTimeOutOption ||
    data.useTransferSizeOption

def hasReadRequestReceived (data : SessionData) : Bool :=
  data.receivedOpCd == .readRequest

def hasWriteRequestReceived (data : SessionData) : Bool :=
  data.receivedOpCd == .writeRequest

def isOldAck (data : SessionData) : Bool :=
  data.receivedWord.toNat < data.lastSentBlock

def isOldData (data : SessionData) : Bool :=
  data.receivedWord.toNat ≤ data.lastSavedBlock

end SessionData

/-- Guard expressions.  `always` is the guard `none` of a row and also the
empty conjunction. -/
inductive Guard
  | always
  | canRetry
  | fromAgreedEndpoint
  | hasAckReceived
  | hasDataReceived
  | hasErrReceived
  | hasError
  | hasMoreToSend
  | hasOptions
  | hasReadRequestReceived
  | hasWriteRequestReceived
  | isOldAck
  | isOldData
  | or (first second : Guard)
  | both (first rest : Guard)
  | not (guard : Guard)
  deriving DecidableEq, Repr

namespace Guard

/-- The variadic `And`. -/
def and : List Guard → Guard
  | [] => always
  | guard :: guards => both guard (and guards)

def eval (data : SessionData) : Guard → Bool
  | always => true
  | canRetry => data.canRetry
  | fromAgreedEndpoint => data.fromAgreedEndpoint
  | hasAckReceived => data.hasAckReceived
  | hasDataReceived => data.hasDataReceived
  | hasErrReceived => data.hasErrReceived
  | hasError => data.hasError
  | hasMoreToSend => data.hasMoreToSend
  | hasOptions => data.hasOptions
  | hasReadRequestReceived => data.hasReadRequestReceived
  | hasWriteRequestReceived => data.hasWriteRequestReceived
  | isOldAck => data.isOldAck
  | isOldData => data.isOldData
  | or first second => eval data first || eval data second
  | both first rest => eval data first && eval data rest
  | not guard => !eval data guard

end Guard

namespace SessionData

variable {data : SessionData}

theorem hasErrReceived_of_hasAckReceived (ack : data.hasAckReceived = true) :
    data.hasErrReceived = false := by
  simp only [hasAckReceived, hasErrReceived, Bool.and_eq_true, beq_iff_eq,
    Bool.and_eq_false_iff] at ack ⊢
  left
  simp [ack.1.1]

theorem hasReadRequestReceived_of_hasWriteRequestReceived
    (writes : data.hasWriteRequestReceived = true) :
    data.hasReadRequestReceived = false := by
  simp only [hasWriteRequestReceived, hasReadRequestReceived, beq_iff_eq]
    at writes ⊢
  rw [writes]
  rfl

end SessionData

end MsmTftp
