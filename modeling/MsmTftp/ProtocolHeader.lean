import MsmTftp.CellBuffer

/-!
# Opcodes, error codes and packet headers

Headers are two or one 16-bit words in network byte order at the front of a
buffer.  The views and proxies of the source read and write these words in the
raw buffer, whatever the length of the packet in it.
-/

namespace MsmTftp

open CellBuffer

abbrev Bytes := List UInt8

/-- An opcode of the wire; any 16-bit value can be received. -/
structure OpCode where
  value : UInt16
  deriving DecidableEq, Repr, Inhabited

namespace OpCode

def readRequest : OpCode := ⟨1⟩
def writeRequest : OpCode := ⟨2⟩
def data : OpCode := ⟨3⟩
def acknowledgment : OpCode := ⟨4⟩
def error : OpCode := ⟨5⟩
def optionAcknowledgment : OpCode := ⟨6⟩

end OpCode

/-- The error codes of RFC 1350. -/
inductive ErrorCode
  | notDefined
  | fileNotFound
  | accessViolation
  | diskFull
  | illegalTftpOperation
  | unknownTransferId
  | fileAlreadyExists
  | noSuchUser
  deriving DecidableEq, Repr

def ErrorCode.value : ErrorCode → UInt16
  | notDefined => 0
  | fileNotFound => 1
  | accessViolation => 2
  | diskFull => 3
  | illegalTftpOperation => 4
  | unknownTransferId => 5
  | fileAlreadyExists => 6
  | noSuchUser => 7

section Words

/-- The two bytes of a word in network order. -/
def wordBytes (word : UInt16) : Bytes :=
  [UInt8.ofNat (word.toNat / 256), UInt8.ofNat (word.toNat % 256)]

/-- The word stored in network order at a cell and its successor. -/
def getWord (buffer : Buffer UInt8) (offset : Nat) : UInt16 :=
  UInt16.ofNat ((buffer offset).toNat * 256 + (buffer (offset + 1)).toNat)

def setWordAt (buffer : Buffer UInt8) (offset : Nat) (word : UInt16) :
    Buffer UInt8 :=
  write buffer offset (wordBytes word)

@[simp]
theorem wordBytes_length (word : UInt16) : (wordBytes word).length = 2 :=
  rfl

theorem ofNat_wordBytes (word : UInt16) :
    UInt16.ofNat ((UInt8.ofNat (word.toNat / 256)).toNat * 256 +
      (UInt8.ofNat (word.toNat % 256)).toNat) = word := by
  have bounded := word.toNat_lt
  have high : word.toNat / 256 % 256 = word.toNat / 256 := by omega
  have whole : word.toNat / 256 * 256 + word.toNat % 256 = word.toNat := by
    omega
  simp [high, whole]

theorem getWord_congr {first second : Buffer UInt8} {offset : Nat}
    (high : first offset = second offset)
    (low : first (offset + 1) = second (offset + 1)) :
    getWord first offset = getWord second offset := by
  simp [getWord, high, low]

theorem getWord_write {buffer : Buffer UInt8} {offset index : Nat}
    {values : Bytes} {word : UInt16} (rest : Bytes)
    (from_offset : offset ≤ index)
    (written : values.drop (index - offset) = wordBytes word ++ rest) :
    getWord (write buffer offset values) index = word := by
  have first : values[index - offset]? =
      some (UInt8.ofNat (word.toNat / 256)) := by
    have := congrArg (fun bytes => bytes[0]?) written
    simpa [wordBytes] using this
  have second : values[index + 1 - offset]? =
      some (UInt8.ofNat (word.toNat % 256)) := by
    have := congrArg (fun bytes => bytes[1]?) written
    have successor : index - offset + 1 = index + 1 - offset := by omega
    simpa [wordBytes, successor] using this
  have after : offset ≤ index + 1 := by omega
  simp only [getWord, write, if_pos from_offset, if_pos after, first, second,
    Option.getD_some]
  exact ofNat_wordBytes word

end Words

namespace HeaderView

/-- `sizeof(Header)`: opcode and word. -/
def size : Nat := 4

def opCd (buffer : Buffer UInt8) : OpCode :=
  ⟨getWord buffer 0⟩

def word (buffer : Buffer UInt8) : UInt16 :=
  getWord buffer 2

end HeaderView

namespace ShortHeaderView

/-- `sizeof(ShortHeader)`: the opcode alone. -/
def size : Nat := 2

def opCd (buffer : Buffer UInt8) : OpCode :=
  ⟨getWord buffer 0⟩

end ShortHeaderView

namespace HeaderProxy

def setOpCd (buffer : Buffer UInt8) (opcode : OpCode) : Buffer UInt8 :=
  setWordAt buffer 0 opcode.value

def setWord (buffer : Buffer UInt8) (word : UInt16) : Buffer UInt8 :=
  setWordAt buffer 2 word

end HeaderProxy

namespace Packet

/-- A four-byte header. -/
def header (opcode : OpCode) (word : UInt16) : Bytes :=
  wordBytes opcode.value ++ wordBytes word

def dataPacket (block : UInt16) (payload : Bytes) : Bytes :=
  header .data block ++ payload

def ackPacket (block : UInt16) : Bytes :=
  header .acknowledgment block

def errorPacket (code : UInt16) : Bytes :=
  header .error code ++ [0]

/-- The opcode of a packet, read from its first two bytes. -/
def opCode (packet : Bytes) : OpCode :=
  HeaderView.opCd (ofList 0 packet)

/-- The block number or error code of a packet. -/
def word (packet : Bytes) : UInt16 :=
  HeaderView.word (ofList 0 packet)

def payload (packet : Bytes) : Bytes :=
  packet.drop HeaderView.size

@[simp]
theorem header_length (opcode : OpCode) (word : UInt16) :
    (header opcode word).length = 4 :=
  rfl

@[simp]
theorem ackPacket_length (block : UInt16) : (ackPacket block).length = 4 :=
  rfl

@[simp]
theorem opCode_header_append (opcode : OpCode) (word : UInt16) (rest : Bytes) :
    opCode (header opcode word ++ rest) = opcode := by
  have read : getWord (ofList 0 (header opcode word ++ rest)) 0 =
      opcode.value :=
    getWord_write (wordBytes word ++ rest) (Nat.le_refl 0)
      (by simp [header])
  simp [opCode, HeaderView.opCd, read]

@[simp]
theorem word_header_append (opcode : OpCode) (number : UInt16) (rest : Bytes) :
    word (header opcode number ++ rest) = number :=
  getWord_write rest (Nat.zero_le 2) (by simp [header, wordBytes])

@[simp]
theorem opCode_dataPacket (block : UInt16) (payload : Bytes) :
    opCode (dataPacket block payload) = .data :=
  opCode_header_append .data block payload

@[simp]
theorem word_dataPacket (block : UInt16) (payload : Bytes) :
    word (dataPacket block payload) = block :=
  word_header_append .data block payload

@[simp]
theorem payload_dataPacket (block : UInt16) (bytes : Bytes) :
    payload (dataPacket block bytes) = bytes := by
  simp [payload, dataPacket, header, wordBytes, HeaderView.size]

@[simp]
theorem opCode_ackPacket (block : UInt16) :
    opCode (ackPacket block) = .acknowledgment := by
  simpa [ackPacket] using opCode_header_append .acknowledgment block []

@[simp]
theorem word_ackPacket (block : UInt16) : word (ackPacket block) = block := by
  simpa [ackPacket] using word_header_append .acknowledgment block []

@[simp]
theorem opCode_errorPacket (code : UInt16) :
    opCode (errorPacket code) = .error :=
  opCode_header_append .error code [0]

/-- The header of a received packet does not depend on what the buffer held
before, once the packet covers it. -/
theorem opCd_eq_opCode {buffer : Buffer UInt8} {size : Nat} {packet : Bytes}
    (shown : view buffer size = packet) (long : 2 ≤ size) :
    HeaderView.opCd buffer = opCode packet := by
  subst shown
  simp only [opCode, HeaderView.opCd, OpCode.mk.injEq]
  exact getWord_congr (ofList_view (by omega)).symm
    (ofList_view (by omega)).symm

theorem word_eq_word {buffer : Buffer UInt8} {size : Nat} {packet : Bytes}
    (shown : view buffer size = packet) (long : 4 ≤ size) :
    HeaderView.word buffer = word packet := by
  subst shown
  exact getWord_congr (ofList_view (by omega)).symm
    (ofList_view (by omega)).symm

end Packet

theorem setWord_setOpCd (buffer : Buffer UInt8) (opcode : OpCode)
    (word : UInt16) :
    HeaderProxy.setWord (HeaderProxy.setOpCd buffer opcode) word =
      write buffer 0 (Packet.header opcode word) :=
  write_adjacent buffer 0 (wordBytes opcode.value) (wordBytes word)

end MsmTftp
