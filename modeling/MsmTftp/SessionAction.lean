import MsmTftp.SessionGuard

/-!
# Actions

Every action functor maps the session data and the answers of the operating
system to new data and the effects it has on files, timers and sockets.
-/

namespace MsmTftp

open CellBuffer

/-- What the calls of one action into the operating system answer. -/
structure Environment where
  /-- `Tid::CreateTid`. -/
  tid : UInt16 := 1024
  /-- Opening the data socket succeeds. -/
  opensSocket : Bool := true
  /-- `GetReadFilePath` under a root path. -/
  readFilePath : Bytes → Bytes → Option Bytes := fun _ name => some name
  /-- `GetWriteFilePath` under a root path. -/
  writeFilePath : Bytes → Bytes → Option Bytes := fun _ name => some name
  /-- `std::filesystem::file_size`. -/
  fileSize : Bytes → Option UInt64 := fun _ => none
  /-- Opening the file stream succeeds. -/
  opensFile : Bool := true
  /-- The content of the file behind the stream. -/
  content : Bytes := []
  /-- The number of bytes a read delivers before an input error. -/
  readError : Option Nat := none
  /-- The stream takes the bytes of a write. -/
  acceptsWrite : Bool := true
  /-- Closing the stream flushes it. -/
  flushes : Bool := true

/-- What a session does to the outside, in program order. -/
inductive Effect
  | listenerReceive
  | sendTo (packet : Bytes) (receiver : Endpoint)
  | receiveFrom
  | startTimer (duration : Nat)
  | cancelSocket
  | closeSocket
  | cancelTimer
  | openFile (path : Bytes) (truncate : Bool)
  | writeFile (bytes : Bytes)
  | closeFile
  deriving DecidableEq, Repr

/-- The data an action leaves and its effects. -/
abbrev Outcome := SessionData × List Effect

/-- The prefix both request actions share: a fresh transfer identifier, and
the data socket opened and bound to it.  A failure to bind is only logged. -/
def openDataSocket (environment : Environment) (data : SessionData) :
    SessionData :=
  { data with
    localDataEndpoint := ⟨data.localAddress, environment.tid⟩
    socketOpen := data.socketOpen || environment.opensSocket }

/-- Open the file stream; only the badbit counts as a failure. -/
def openFileStream (environment : Environment) (path : Bytes)
    (readable truncate : Bool) (data : SessionData) : Outcome :=
  let stream := data.fileStream.open environment.opensFile readable
  ({ data with
      fileStream := stream
      lastErrorCode :=
        if stream.bad then some .fileNotFound else data.lastErrorCode },
    [.openFile path truncate])

/-- `GetFileSize`. -/
def getFileSize (environment : Environment) (path : Bytes) : Option Nat :=
  (environment.fileSize path).map UInt64.toNat

/-- The transfer size option is used when the client asks with zero. -/
def setTransferSize (environment : Environment) (request : RequestReceived)
    (path : Bytes) (data : SessionData) : SessionData :=
  match TransferSizeDecoder.getTransferSize request.transferSize with
  | some requested =>
      match getFileSize environment path with
      | some size =>
          { data with
            useTransferSizeOption := requested == 0
            fileSize := some size }
      | none => data
  | none => data

def setTimeOut (request : RequestReceived) (data : SessionData) :
    SessionData :=
  match TimeOutDecoder.getTimeOut request.timeOut with
  | some duration =>
      { data with timeOut := duration, useTimeOutOption := true }
  | none => data

def setBlockSize (request : RequestReceived) (data : SessionData) :
    SessionData :=
  match BlockSizeDecoder.getBlockSize request.blockSize with
  | some size =>
      { data with agreedBlockSize := size, useBlockSizeOption := true }
  | none => data

/-- The file of a read request; `fstream::open` without a mode opens it for
reading and writing. -/
def openReadFile (environment : Environment) (request : RequestReceived)
    (data : SessionData) : Outcome :=
  match getMode request.mode with
  | some _ =>
      match environment.readFilePath data.rootPath request.fileName with
      | some path =>
          openFileStream environment path true false
            (setTransferSize environment request path data)
      | none => ({ data with lastErrorCode := some .fileNotFound }, [])
  | none => ({ data with lastErrorCode := some .illegalTftpOperation }, [])

def initServeReadRequest (environment : Environment)
    (request : RequestReceived) (data : SessionData) : Outcome :=
  let (data, effects) :=
    openReadFile environment request (openDataSocket environment data)
  (setBlockSize request (setTimeOut request data), effects)

/-- The file of a write request, opened with `std::ios::out`. -/
def openWriteFile (environment : Environment) (request : RequestReceived)
    (data : SessionData) : Outcome :=
  match getMode request.mode with
  | some _ =>
      match environment.writeFilePath data.rootPath request.fileName with
      | some path => openFileStream environment path false true data
      | none => ({ data with lastErrorCode := some .fileNotFound }, [])
  | none => ({ data with lastErrorCode := some .illegalTftpOperation }, [])

def initServeWriteRequest (environment : Environment)
    (request : RequestReceived) (data : SessionData) : Outcome :=
  openWriteFile environment request (openDataSocket environment data)

/-- Write a header into the send buffer. -/
def writeHeader (opcode : OpCode) (word : UInt16) (buffer : Buffer UInt8) :
    Buffer UInt8 :=
  HeaderProxy.setWord (HeaderProxy.setOpCd buffer opcode) word

def formAckPacket (data : SessionData) : SessionData :=
  { data with
    sendBuffer :=
      writeHeader .acknowledgment (UInt16.ofNat data.lastSavedBlock)
        data.sendBuffer
    sendPacket := HeaderView.size }

/-- An error packet has an empty message. -/
def formErrorPacketWith (code : UInt16) (data : SessionData) : SessionData :=
  { data with
    sendBuffer :=
      write (writeHeader .error code data.sendBuffer) HeaderView.size [0]
    sendPacket := HeaderView.size + 1 }

def formErrorPacket (data : SessionData) : SessionData :=
  formErrorPacketWith
    (match data.lastErrorCode with
      | some code => code.value
      | none => 0) data

def formProtocolErrorPacket (data : SessionData) : SessionData :=
  formErrorPacketWith ErrorCode.illegalTftpOperation.value data

/-- Read the next block behind the header; `gcount` is the number of bytes the
read extracted. -/
def formDataPacket (environment : Environment) (data : SessionData) :
    SessionData :=
  let (stream, bytes) :=
    data.fileStream.read environment.content environment.readError
      data.agreedBlockSize
  let data :=
    { data with
      fileStream := stream
      sendBuffer := write data.sendBuffer HeaderView.size bytes }
  if stream.bad then { data with lastErrorCode := some .diskFull }
  else
    { data with
      lastBlockSize := bytes.length
      lastSentBlock := data.lastSentBlock + 1
      sendPacket := HeaderView.size + bytes.length
      sendBuffer :=
        writeHeader .data (UInt16.ofNat (data.lastSentBlock + 1))
          data.sendBuffer }

/-- `std::to_chars` in base ten. -/
def toChars (value : Nat) : Bytes :=
  asciiBytes (Nat.toDigits 10 value)

/-- One option of an OACK: the key and the value, each with a NUL. -/
def oackOption (used : Bool) (key : Bytes) (value : Nat) : Bytes :=
  if used then key ++ [0] ++ (toChars value ++ [0]) else []

/-- The options of an OACK.  `FormOackPacket` unwraps the file size only when
the transfer size option is used. -/
def oackOptions (data : SessionData) : Bytes :=
  oackOption data.useBlockSizeOption BlockSizeDecoder.kBlockSizeOption
      data.agreedBlockSize ++
    oackOption data.useTimeOutOption TimeOutDecoder.kTimeOutOption
      (data.timeOut / 1000) ++
    oackOption data.useTransferSizeOption
      TransferSizeDecoder.kTransferSizeOption (data.fileSize.getD 0)

def formOackPacket (data : SessionData) : SessionData :=
  { data with
    sendBuffer :=
      write (HeaderProxy.setOpCd data.sendBuffer .optionAcknowledgment)
        ShortHeaderView.size (oackOptions data)
    lastSentBlock := 0
    lastSavedBlock := 0
    sendPacket := ShortHeaderView.size + (oackOptions data).length }

/-- Write the payload of the received packet to the file. -/
def writeData (environment : Environment) (data : SessionData) : Outcome :=
  let (stream, taken) := data.fileStream.write environment.acceptsWrite
  let effects :=
    if taken then [.writeFile (Packet.payload data.incoming)] else []
  if stream.fail then
    ({ data with fileStream := stream, lastErrorCode := some .diskFull },
      effects)
  else
    ({ data with
        fileStream := stream
        lastBlockSize := data.receivedPacket - HeaderView.size
        lastSavedBlock := data.receivedWord.toNat }, effects)

/-- The action `Reset`: close the file, then reset every part, which closes
the data socket, cancels the timer and closes the file once more. -/
def resetSession (environment : Environment) (data : SessionData) : Outcome :=
  let closed :=
    { data with
      fileStream := data.fileStream.clear.close environment.flushes }
  (closed.reset environment.flushes,
    (if data.fileStream.isOpen then [.closeFile] else []) ++
      [.closeSocket, .cancelTimer])

def resetTimeOut (data : SessionData) : SessionData :=
  { data with resendCount := 0 }

def countTimeOut (data : SessionData) : SessionData :=
  { data with resendCount := data.resendCount + 1 }

end MsmTftp
