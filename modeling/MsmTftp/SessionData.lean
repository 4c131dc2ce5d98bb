import MsmTftp.ProtocolRequest

/-!
# The data of a session

`SessionData` is the fold of parts the source inherits from, each with its own
`reset`.  The file stream models the part of `std::fstream` a session relies
on: the stream state bits, the position, and the failures the operating system
can answer with.
-/

namespace MsmTftp

open CellBuffer

structure Endpoint where
  address : UInt32 := 0
  port : UInt16 := 0
  deriving DecidableEq, Repr, Inhabited

/-- `Connection`: `socketOpen` tells whether `socket_` is open and
`listenerSocket` whether `listener_socket_` still locks. -/
structure Connection where
  listenerSocket : Bool
  socketOpen : Bool := false
  agreedRemoteEndpoint : Endpoint := {}
  lastRemoteEndpoint : Endpoint := {}
  localDataEndpoint : Endpoint := {}
  localAddress : UInt32

def Connection.reset (connection : Connection) : Connection :=
  { connection with
    socketOpen := false
    agreedRemoteEndpoint := {}
    lastRemoteEndpoint := {}
    localDataEndpoint := {} }

/-- `Timer`: the receive time-out in milliseconds. -/
structure Timer where
  timeOut : Nat := 1000

/-- `Timer::Reset` cancels the timer and leaves the duration alone. -/
def Timer.reset (timer : Timer) : Timer :=
  timer

/-- `std::fstream`. -/
structure FileStream where
  isOpen : Bool := false
  readable : Bool := false
  eofbit : Bool := false
  failbit : Bool := false
  badbit : Bool := false
  position : Nat := 0
  deriving DecidableEq, Repr

namespace FileStream

def good (stream : FileStream) : Bool :=
  !(stream.eofbit || stream.failbit || stream.badbit)

def fail (stream : FileStream) : Bool :=
  stream.failbit || stream.badbit

def bad (stream : FileStream) : Bool :=
  stream.badbit

def clear (stream : FileStream) : FileStream :=
  { stream with eofbit := false, failbit := false, badbit := false }

/-- A failed `open`, and an `open` of an open stream, sets the failbit. -/
def «open» (stream : FileStream) (opened readable : Bool) : FileStream :=
  if !stream.isOpen && opened then { isOpen := true, readable }
  else { stream with failbit := true }

/-- `close` sets the failbit when flushing fails or nothing is open. -/
def close (stream : FileStream) (flushed : Bool) : FileStream :=
  { failbit := stream.failbit || !(stream.isOpen && flushed)
    eofbit := stream.eofbit
    badbit := stream.badbit }

/-- `read` of `count` bytes from a file with the given content: the stream and
the bytes extracted, whose number is `gcount`.  An input error after `error`
bytes sets the badbit; the end of the file sets eofbit and failbit. -/
def read (stream : FileStream) (content : Bytes) (error : Option Nat)
    (count : Nat) : FileStream × Bytes :=
  if stream.good then
    let available :=
      if stream.readable then content.drop stream.position else []
    match error with
    | some delivered =>
        let bytes := (available.take count).take delivered
        ({ stream with
            badbit := true
            position := stream.position + bytes.length }, bytes)
    | none =>
        let bytes := available.take count
        let short := decide (bytes.length < count)
        ({ stream with
            eofbit := short
            failbit := short
            position := stream.position + bytes.length }, bytes)
  else ({ stream with failbit := true }, [])

/-- `write`: the stream and whether the bytes were taken. -/
def write (stream : FileStream) (accepted : Bool) : FileStream × Bool :=
  if stream.good then
    if accepted then (stream, true)
    else ({ stream with badbit := true }, false)
  -- With only `eofbit` set libstdc++ sets no `failbit`; only a read sets it,
  -- and no `WriteData` runs after a read of the stream.
  else ({ stream with failbit := true }, false)

end FileStream

/-- `File`. -/
structure File where
  fileStream : FileStream := {}

def File.reset (file : File) (flushed : Bool) : File :=
  { fileStream := (file.fileStream.close flushed).clear }

/-- `Buffer`. -/
structure Buffers where
  receiveBuffer : Buffer UInt8 := fill 0
  sendBuffer : Buffer UInt8 := fill 0

def Buffers.reset (_ : Buffers) : Buffers :=
  { receiveBuffer := fill 0, sendBuffer := fill 0 }

/-- `TransferState`.  `sendPacket` and `receivedPacket` are the sizes of the
views of the same name, which start at the front of their buffer. -/
structure TransferState where
  agreedBlockSize : Nat := 512
  lastBlockSize : Nat := 0
  lastSentBlock : Nat := 0
  lastSavedBlock : Nat := 0
  resendCount : Nat := 0
  fileSize : Option Nat := none
  sendPacket : Nat := 0
  receivedPacket : Nat := 0
  lastErrorCode : Option ErrorCode := none

/-- `TransferState::Reset`.  The source declares a local variable
`file_size_` instead of assigning the member, so the file size stays. -/
def TransferState.reset (transfer : TransferState) : TransferState :=
  { transfer with
    agreedBlockSize := 512
    lastBlockSize := 0
    lastSentBlock := 0
    lastSavedBlock := 0
    resendCount := 0
    receivedPacket := 0
    sendPacket := 0
    lastErrorCode := none }

/-- `FilePath`. -/
structure FilePath where
  rootPath : Bytes

def FilePath.reset (path : FilePath) : FilePath :=
  path

/-- `Option`. -/
structure Options where
  useBlockSizeOption : Bool := false
  useTimeOutOption : Bool := false
  useTransferSizeOption : Bool := false
  deriving DecidableEq, Repr

def Options.reset (_ : Options) : Options :=
  {}

structure SessionData extends Connection, Timer, File, Buffers, TransferState,
    FilePath, Options

namespace SessionData

/-- `SessionData::Reset`: every part in turn. -/
def reset (data : SessionData) (flushed : Bool) : SessionData where
  toConnection := data.toConnection.reset
  toTimer := data.toTimer.reset
  toFile := data.toFile.reset flushed
  toBuffers := data.toBuffers.reset
  toTransferState := data.toTransferState.reset
  toFilePath := data.toFilePath.reset
  toOptions := data.toOptions.reset

/-- The bytes of `send_packet_`. -/
def outgoing (data : SessionData) : Bytes :=
  view data.sendBuffer data.sendPacket

/-- The bytes of `received_packet_`. -/
def incoming (data : SessionData) : Bytes :=
  view data.receiveBuffer data.receivedPacket

@[simp]
theorem incoming_length (data : SessionData) :
    data.incoming.length = data.receivedPacket := by
  simp [incoming]

end SessionData

/-- What `TftpServer::Start` gives a session. -/
structure Config where
  listenerSocket : Bool
  localAddress : UInt32
  rootPath : Bytes
  deriving DecidableEq, Repr

/-- The data of a session that was constructed and configured. -/
def SessionData.fresh (config : Config) : SessionData where
  listenerSocket := config.listenerSocket
  localAddress := config.localAddress
  rootPath := config.rootPath

/-- The configuration a session carries. -/
def SessionData.config (data : SessionData) : Config where
  listenerSocket := data.listenerSocket
  localAddress := data.localAddress
  rootPath := data.rootPath

end MsmTftp
