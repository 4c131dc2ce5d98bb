import MsmTftp.ProtocolOptions

/-!
# Tokenizing and parsing a request datagram

The tokenizer walks over NUL-terminated strings in the receive buffer.  An
iterator keeps the start of the current string, the position behind its
terminator and the end of the range; the end iterator is recognised by its
current position alone.
-/

namespace MsmTftp

open CellBuffer

/-- `Buffer::kBufferSize`. -/
def kBufferSize : Nat := 64 * 1024

/-- The first NUL among `count` cells, or the cell behind them. -/
def findNul (buffer : Buffer UInt8) : (count first : Nat) → Nat
  | 0, first => first
  | count + 1, first =>
      if buffer first = 0 then first else findNul buffer count (first + 1)

/-- `std::find` of a NUL.  A reversed range, which a datagram of fewer than
two bytes produces, ends at once at its end. -/
def find (buffer : Buffer UInt8) (first last : Nat) : Nat :=
  if last ≤ first then last else findNul buffer (last - first) first

/-- The C string that starts at a cell. -/
def cString (buffer : Buffer UInt8) (first : Nat) : Bytes :=
  (List.range' first (find buffer first kBufferSize - first)).map buffer

namespace RequestTokenizer

/-- `RequestTokenizer::Iterator`. -/
structure Iterator where
  last : Nat
  next : Nat
  current : Nat
  deriving DecidableEq, Repr

/-- `RequestTokenizer::begin`. -/
def first (buffer : Buffer UInt8) (start last : Nat) : Iterator :=
  let found := find buffer start last
  if found ≠ last then { last, next := found + 1, current := start }
  else { last, next := found, current := last }

namespace Iterator

/-- `operator*`: the view runs to the next NUL, wherever it is. -/
def deref (buffer : Buffer UInt8) (iterator : Iterator) : Bytes :=
  cString buffer iterator.current

/-- `operator++`. -/
def advance (buffer : Buffer UInt8) (iterator : Iterator) : Iterator :=
  let found := find buffer iterator.next iterator.last
  if found = iterator.last then
    { iterator with next := found, current := iterator.last }
  else { iterator with next := found + 1, current := iterator.next }

/-- Comparison with `end()`. -/
def atEnd (iterator : Iterator) : Bool :=
  iterator.current == iterator.last

end Iterator

end RequestTokenizer

/-- The event raised for a request datagram. -/
structure RequestReceived where
  opCode : OpCode
  fileName : Bytes := []
  mode : Bytes := []
  blockSize : Bytes := []
  timeOut : Bytes := []
  transferSize : Bytes := []
  deriving DecidableEq, Repr

namespace RequestReceived

/-- Store an option value under the field its key names. -/
def setOption (request : RequestReceived) (key value : Bytes) :
    RequestReceived :=
  if BlockSizeDecoder.isBlockSizeOption key then
    { request with blockSize := value }
  else if TimeOutDecoder.isTimeOutOption key then
    { request with timeOut := value }
  else if TransferSizeDecoder.isTransferSizeOption key then
    { request with transferSize := value }
  else request

end RequestReceived

open RequestTokenizer in
/-- The option loop.  Each round consumes a key and its value, so the number
of cells in the range bounds the rounds. -/
def parseOptions (buffer : Buffer UInt8) :
    Nat → Iterator → RequestReceived → RequestReceived
  | 0, _, request => request
  | rounds + 1, token, request =>
      let key := token.deref buffer
      let token := token.advance buffer
      if token.atEnd then request
      else
        let request := request.setOption key (token.deref buffer)
        let token := token.advance buffer
        if token.atEnd then request
        else parseOptions buffer rounds token request

open RequestTokenizer in
/-- The part of `ProcessEventFromBuffer` behind its test for malformed
datagrams. -/
def parseRequest (buffer : Buffer UInt8) (bytesReceived : Nat) :
    RequestReceived :=
  let token := first buffer ShortHeaderView.size bytesReceived
  let request : RequestReceived :=
    { opCode := ShortHeaderView.opCd buffer, fileName := token.deref buffer }
  let token := token.advance buffer
  if token.atEnd then request
  else
    let request := { request with mode := token.deref buffer }
    let token := token.advance buffer
    if token.atEnd then request
    else parseOptions buffer bytesReceived token request

/-- The test for malformed datagrams at the start of
`ProcessEventFromBuffer`. -/
def isMalformed (buffer : Buffer UInt8) (bytesReceived : Nat) : Bool :=
  bytesReceived < ShortHeaderView.size + 2 || buffer (bytesReceived - 1) != 0

example :
    parseRequest (ofList 0 (wordBytes 1 ++ asciiBytes ['f', '\x00'] ++
        kOctetMode ++ [0] ++ asciiBytes ['T', 'S', 'i', 'z', 'e', '\x00'] ++
        asciiBytes ['0', '\x00'])) 18 =
      { opCode := .readRequest, fileName := asciiBytes ['f'],
        mode := kOctetMode, transferSize := asciiBytes ['0'] } := by
  decide +kernel

end MsmTftp
