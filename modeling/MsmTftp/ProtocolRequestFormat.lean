import Mathlib.Data.List.Induction
import MsmTftp.ProtocolTokens

/-!
# The format of a request and its parser

A request is an opcode and a list of strings with a NUL behind each: the file
name, the mode, and keys with their values.  `Parses` follows the control flow
of the source, in which the option loop has no bound; every datagram has
exactly one outcome, which is what the executable parser returns.
-/

namespace MsmTftp

open CellBuffer RequestTokenizer

/-- The option loop: `continue` and an unknown key both go on to the test of
the loop, which moves to the next key. -/
inductive OptionLoop (buffer : Buffer UInt8) :
    Iterator → RequestReceived → RequestReceived → Prop
  | noValue {token : Iterator} {request : RequestReceived}
      (ends : (token.advance buffer).atEnd = true) :
      OptionLoop buffer token request request
  | leaves {token : Iterator} {request : RequestReceived}
      (value : (token.advance buffer).atEnd = false)
      (ends : ((token.advance buffer).advance buffer).atEnd = true) :
      OptionLoop buffer token request
        (request.setOption (token.deref buffer)
          ((token.advance buffer).deref buffer))
  | loops {token : Iterator} {request result : RequestReceived}
      (value : (token.advance buffer).atEnd = false)
      (more : ((token.advance buffer).advance buffer).atEnd = false)
      (continues : OptionLoop buffer ((token.advance buffer).advance buffer)
        (request.setOption (token.deref buffer)
          ((token.advance buffer).deref buffer)) result) :
      OptionLoop buffer token request result

/-- The iterator at the file name. -/
def fileToken (buffer : Buffer UInt8) (bytesReceived : Nat) : Iterator :=
  first buffer ShortHeaderView.size bytesReceived

/-- The request when it ends behind the file name. -/
def fileRequest (buffer : Buffer UInt8) (bytesReceived : Nat) :
    RequestReceived :=
  { opCode := ShortHeaderView.opCd buffer
    fileName := (fileToken buffer bytesReceived).deref buffer }

/-- The iterator at the mode. -/
def modeToken (buffer : Buffer UInt8) (bytesReceived : Nat) : Iterator :=
  (fileToken buffer bytesReceived).advance buffer

/-- The request when it ends behind the mode. -/
def modeRequest (buffer : Buffer UInt8) (bytesReceived : Nat) :
    RequestReceived :=
  { fileRequest buffer bytesReceived with
    mode := (modeToken buffer bytesReceived).deref buffer }

/-- The ways through `ProcessEventFromBuffer` behind its test for malformed
datagrams, with the request each raises. -/
inductive Parses (buffer : Buffer UInt8) (bytesReceived : Nat) :
    RequestReceived → Prop
  | noMode (ends : (modeToken buffer bytesReceived).atEnd = true) :
      Parses buffer bytesReceived (fileRequest buffer bytesReceived)
  | noOptions (mode : (modeToken buffer bytesReceived).atEnd = false)
      (ends : ((modeToken buffer bytesReceived).advance buffer).atEnd =
        true) :
      Parses buffer bytesReceived (modeRequest buffer bytesReceived)
  | options {result : RequestReceived}
      (mode : (modeToken buffer bytesReceived).atEnd = false)
      (more : ((modeToken buffer bytesReceived).advance buffer).atEnd = false)
      (loop : OptionLoop buffer
        ((modeToken buffer bytesReceived).advance buffer)
        (modeRequest buffer bytesReceived) result) :
      Parses buffer bytesReceived result

/-- The two byte strings are equal up to the case of ASCII letters. -/
def SameUpToCase (first second : Bytes) : Prop :=
  first.map toLower = second.map toLower

instance (first second : Bytes) : Decidable (SameUpToCase first second) :=
  inferInstanceAs (Decidable (_ = _))

/-- Keys with their values; a last key without a value is left out. -/
def optionPairs : List Bytes → List (Bytes × Bytes)
  | key :: value :: strings => (key, value) :: optionPairs strings
  | _ => []

/-- The value of the last pair with this key, empty without one. -/
def lastValue (name : Bytes) (pairs : List (Bytes × Bytes)) : Bytes :=
  ((pairs.filter fun pair => SameUpToCase pair.1 name).getLast?.map
    Prod.snd).getD []

/-- The request that a file name and the strings behind it stand for. -/
def RequestReceived.ofStrings (opcode : OpCode) (fileName : Bytes)
    (strings : List Bytes) : RequestReceived where
  opCode := opcode
  fileName := fileName
  mode := strings.headD []
  blockSize :=
    lastValue BlockSizeDecoder.kBlockSizeOption (optionPairs strings.tail)
  timeOut := lastValue TimeOutDecoder.kTimeOutOption (optionPairs strings.tail)
  transferSize :=
    lastValue TransferSizeDecoder.kTransferSizeOption
      (optionPairs strings.tail)

section Loop

variable {buffer : Buffer UInt8} {token : Iterator} {string : Bytes}
  {strings : List Bytes} {request result : RequestReceived}

/-- Enough rounds take the loop to its end. -/
theorem optionLoop_parseOptions {rounds : Nat}
    (visits : token.Visits buffer (string :: strings))
    (enough : strings.length < 2 * rounds) :
    OptionLoop buffer token request
      (parseOptions buffer rounds token request) := by
  induction rounds generalizing token string strings request with
  | zero => omega
  | succ rounds ih =>
      simp only [parseOptions]
      cases strings with
      | nil =>
          have ends := visits.advance.atEnd_nil
          rw [if_pos ends]
          exact .noValue ends
      | cons value strings =>
          have here := visits.advance.atEnd_cons
          rw [if_neg (by simp [here])]
          cases strings with
          | nil =>
              have ends := visits.advance.advance.atEnd_nil
              rw [if_pos ends]
              exact .leaves here ends
          | cons key strings =>
              have more := visits.advance.advance.atEnd_cons
              rw [if_neg (by simp [more])]
              apply OptionLoop.loops here more
              apply ih visits.advance.advance
              simp only [List.length_cons] at enough
              omega

theorem OptionLoop.unique {other : RequestReceived}
    (loop : OptionLoop buffer token request result)
    (again : OptionLoop buffer token request other) : result = other := by
  induction loop with
  | noValue ends =>
      cases again with
      | noValue => rfl
      | leaves value => simp [ends] at value
      | loops value => simp [ends] at value
  | leaves value ends =>
      cases again with
      | noValue nothing => simp [value] at nothing
      | leaves => rfl
      | loops _ more => simp [ends] at more
  | loops value more continues ih =>
      cases again with
      | noValue nothing => simp [value] at nothing
      | leaves _ ends => simp [more] at ends
      | loops _ _ continuesToo => exact ih continuesToo

end Loop

section Parser

variable {buffer : Buffer UInt8} {bytesReceived : Nat}
  {strings : List Bytes} {result : RequestReceived}

theorem exists_visits (buffer : Buffer UInt8) (bytesReceived : Nat) :
    ∃ strings, strings.length ≤ bytesReceived ∧
      (fileToken buffer bytesReceived).Visits buffer strings := by
  rcases Nat.le_total ShortHeaderView.size bytesReceived with
    long | reversed
  · obtain ⟨strings, segments⟩ := exists_segments buffer long
    have few := segments.length_le
    exact ⟨strings, by omega, segments.first⟩
  · exact ⟨[], Nat.zero_le _, first_of_reversed reversed⟩

theorem parseRequest_eq (buffer : Buffer UInt8) (bytesReceived : Nat) :
    parseRequest buffer bytesReceived =
      if (modeToken buffer bytesReceived).atEnd then
        fileRequest buffer bytesReceived
      else if ((modeToken buffer bytesReceived).advance buffer).atEnd then
        modeRequest buffer bytesReceived
      else parseOptions buffer bytesReceived
        ((modeToken buffer bytesReceived).advance buffer)
        (modeRequest buffer bytesReceived) :=
  rfl

theorem parses_parseRequest (buffer : Buffer UInt8) (bytesReceived : Nat) :
    Parses buffer bytesReceived (parseRequest buffer bytesReceived) := by
  obtain ⟨strings, few, visits⟩ := exists_visits buffer bytesReceived
  rw [parseRequest_eq]
  cases mode : (modeToken buffer bytesReceived).atEnd with
  | true =>
      rw [if_pos rfl]
      exact .noMode mode
  | false =>
      rw [if_neg (by simp)]
      cases more : ((modeToken buffer bytesReceived).advance buffer).atEnd with
      | true =>
          rw [if_pos rfl]
          exact .noOptions mode more
      | false =>
          rw [if_neg (by simp)]
          match strings, visits with
          | [], visits =>
              have ends := visits.advance_nil.atEnd_nil
              exact absurd ends (by simpa [modeToken] using mode)
          | [_], visits =>
              have ends := visits.advance.atEnd_nil
              exact absurd ends (by simpa [modeToken] using mode)
          | [_, _], visits =>
              have ends := visits.advance.advance.atEnd_nil
              exact absurd ends (by simpa [modeToken] using more)
          | _ :: _ :: key :: strings, visits =>
              apply Parses.options mode more
              apply optionLoop_parseOptions visits.advance.advance
              simp only [List.length_cons] at few
              omega

theorem Parses.unique {other : RequestReceived}
    (parses : Parses buffer bytesReceived result)
    (again : Parses buffer bytesReceived other) : result = other := by
  cases parses with
  | noMode ends =>
      cases again with
      | noMode => rfl
      | noOptions mode => simp [ends] at mode
      | options mode => simp [ends] at mode
  | noOptions mode ends =>
      cases again with
      | noMode nothing => simp [mode] at nothing
      | noOptions => rfl
      | options _ more => simp [ends] at more
  | options mode more loop =>
      cases again with
      | noMode nothing => simp [mode] at nothing
      | noOptions _ ends => simp [more] at ends
      | options _ _ loopToo => exact loop.unique loopToo

/-- The parser computes the outcome of every datagram. -/
theorem parses_iff :
    Parses buffer bytesReceived result ↔
      result = parseRequest buffer bytesReceived := by
  constructor
  · intro parses
    exact parses.unique (parses_parseRequest buffer bytesReceived)
  · rintro rfl
    exact parses_parseRequest buffer bytesReceived

end Parser

section Options

variable {buffer : Buffer UInt8} {request : RequestReceived}
  {key value : Bytes}

/-- Store pairs one after the other. -/
def RequestReceived.setOptions (request : RequestReceived)
    (pairs : List (Bytes × Bytes)) : RequestReceived :=
  pairs.foldl (fun request pair => request.setOption pair.1 pair.2) request

theorem parseOptions_eq_setOptions {rounds : Nat} {token : Iterator}
    {string : Bytes} {strings : List Bytes}
    (visits : token.Visits buffer (string :: strings))
    (fits : token.last ≤ kBufferSize) (enough : strings.length < 2 * rounds) :
    parseOptions buffer rounds token request =
      request.setOptions (optionPairs (string :: strings)) := by
  induction rounds generalizing token string strings request with
  | zero => omega
  | succ rounds ih =>
      simp only [parseOptions]
      cases strings with
      | nil =>
          rw [if_pos visits.advance.atEnd_nil]
          rfl
      | cons value strings =>
          have here := visits.advance.atEnd_cons
          rw [if_neg (by simp [here]), visits.deref fits,
            visits.advance.deref (by simpa using fits)]
          cases strings with
          | nil =>
              rw [if_pos visits.advance.advance.atEnd_nil]
              rfl
          | cons key strings =>
              have more := visits.advance.advance.atEnd_cons
              rw [if_neg (by simp [more]),
                ih visits.advance.advance (by simpa using fits)
                  (by simp only [List.length_cons] at enough; omega)]
              rfl

theorem setOptions_concat (pairs : List (Bytes × Bytes))
    (pair : Bytes × Bytes) :
    request.setOptions (pairs ++ [pair]) =
      (request.setOptions pairs).setOption pair.1 pair.2 := by
  simp [RequestReceived.setOptions]

/-- Option names are in lower case, so that folding the key alone compares up
to case. -/
theorem caseInvariantEqual_iff {name : Bytes}
    (lower : name.map toLower = name) :
    caseInvariantEqual key name = true ↔ SameUpToCase key name := by
  rw [caseInvariantEqual, SameUpToCase, lower, beq_iff_eq]

/-- A field that takes the values of the keys with one name ends up with the
last of them. -/
theorem setOptions_field {field : RequestReceived → Bytes} {name : Bytes}
    (stores : ∀ (request : RequestReceived) (key value : Bytes),
      field (request.setOption key value) =
        if SameUpToCase key name then value else field request)
    (fresh : field request = []) (pairs : List (Bytes × Bytes)) :
    field (request.setOptions pairs) = lastValue name pairs := by
  induction pairs using List.reverseRecOn with
  | nil => exact fresh
  | append_singleton pairs pair ih =>
      rw [setOptions_concat, stores, ih]
      unfold lastValue
      rw [List.filter_append]
      split
      · rename_i named
        simp [named]
      · rename_i other
        simp [other]

theorem not_sameUpToCase_of_sameUpToCase {first second : Bytes}
    (differ : first.map toLower ≠ second.map toLower)
    (named : SameUpToCase key first) : ¬ SameUpToCase key second := by
  intro again
  exact differ (named.symm.trans again)

theorem isBlockSizeOption_iff :
    BlockSizeDecoder.isBlockSizeOption key = true ↔
      SameUpToCase key BlockSizeDecoder.kBlockSizeOption :=
  caseInvariantEqual_iff (by decide)

theorem isTimeOutOption_iff :
    TimeOutDecoder.isTimeOutOption key = true ↔
      SameUpToCase key TimeOutDecoder.kTimeOutOption :=
  caseInvariantEqual_iff (by decide)

theorem isTransferSizeOption_iff :
    TransferSizeDecoder.isTransferSizeOption key = true ↔
      SameUpToCase key TransferSizeDecoder.kTransferSizeOption :=
  caseInvariantEqual_iff (by decide)

theorem setOption_eq (request : RequestReceived) (key value : Bytes) :
    request.setOption key value =
      { request with
        blockSize :=
          if SameUpToCase key BlockSizeDecoder.kBlockSizeOption then value
          else request.blockSize
        timeOut :=
          if SameUpToCase key TimeOutDecoder.kTimeOutOption then value
          else request.timeOut
        transferSize :=
          if SameUpToCase key TransferSizeDecoder.kTransferSizeOption then
            value
          else request.transferSize } := by
  simp only [RequestReceived.setOption, isBlockSizeOption_iff,
    isTimeOutOption_iff, isTransferSizeOption_iff]
  split
  · rename_i named
    rw [if_neg (not_sameUpToCase_of_sameUpToCase (by decide) named),
      if_neg (not_sameUpToCase_of_sameUpToCase (by decide) named)]
  · split
    · rename_i named
      rw [if_neg (not_sameUpToCase_of_sameUpToCase (by decide) named)]
    · split <;> rfl

theorem setOptions_eq (pairs : List (Bytes × Bytes))
    (fresh : request.blockSize = [] ∧ request.timeOut = [] ∧
      request.transferSize = []) :
    request.setOptions pairs =
      { request with
        blockSize := lastValue BlockSizeDecoder.kBlockSizeOption pairs
        timeOut := lastValue TimeOutDecoder.kTimeOutOption pairs
        transferSize :=
          lastValue TransferSizeDecoder.kTransferSizeOption pairs } := by
  obtain ⟨noBlockSize, noTimeOut, noTransferSize⟩ := fresh
  have others : ∀ pairs : List (Bytes × Bytes),
      (request.setOptions pairs).opCode = request.opCode ∧
        (request.setOptions pairs).fileName = request.fileName ∧
          (request.setOptions pairs).mode = request.mode := by
    intro pairs
    induction pairs using List.reverseRecOn with
    | nil => exact ⟨rfl, rfl, rfl⟩
    | append_singleton pairs pair ih =>
        rw [setOptions_concat, setOption_eq]
        exact ih
  have blockSize : (request.setOptions pairs).blockSize =
      lastValue BlockSizeDecoder.kBlockSizeOption pairs := by
    apply setOptions_field _ noBlockSize
    intro request key value
    rw [setOption_eq]
  have timeOut : (request.setOptions pairs).timeOut =
      lastValue TimeOutDecoder.kTimeOutOption pairs := by
    apply setOptions_field _ noTimeOut
    intro request key value
    rw [setOption_eq]
  have transferSize : (request.setOptions pairs).transferSize =
      lastValue TransferSizeDecoder.kTransferSizeOption pairs := by
    apply setOptions_field _ noTransferSize
    intro request key value
    rw [setOption_eq]
  obtain ⟨opCode, fileName, mode⟩ := others pairs
  generalize request.setOptions pairs = result at *
  cases result
  simp_all

end Options

section Requests

variable {buffer : Buffer UInt8} {bytesReceived : Nat} {fileName : Bytes}
  {strings : List Bytes}

/-- A datagram that holds strings behind its opcode is parsed into the request
they stand for. -/
theorem parseRequest_of_segments
    (segments : Segments buffer bytesReceived ShortHeaderView.size
      (fileName :: strings))
    (fits : bytesReceived ≤ kBufferSize) :
    parseRequest buffer bytesReceived =
      .ofStrings (ShortHeaderView.opCd buffer) fileName strings := by
  have few := segments.length_le
  have visits :
      (fileToken buffer bytesReceived).Visits buffer (fileName :: strings) :=
    segments.first
  have bounded : (fileToken buffer bytesReceived).last ≤ kBufferSize := by
    simpa [fileToken] using fits
  have named := visits.deref bounded
  have behind : (modeToken buffer bytesReceived).Visits buffer strings :=
    visits.advance
  have boundedToo : (modeToken buffer bytesReceived).last ≤ kBufferSize := by
    simpa [modeToken] using bounded
  rw [parseRequest_eq]
  cases strings with
  | nil =>
      rw [if_pos behind.atEnd_nil, fileRequest, named]
      rfl
  | cons mode strings =>
      have moded := behind.deref boundedToo
      rw [if_neg (by simp [behind.atEnd_cons])]
      cases strings with
      | nil =>
          rw [if_pos behind.advance.atEnd_nil, modeRequest, fileRequest,
            named, moded]
          rfl
      | cons key strings =>
          rw [if_neg (by simp [behind.advance.atEnd_cons]),
            parseOptions_eq_setOptions behind.advance
              (by simpa using boundedToo)
              (by simp only [List.length_cons] at few; omega),
            setOptions_eq _ ⟨rfl, rfl, rfl⟩, modeRequest, fileRequest, named,
            moded]
          rfl

/-- The bytes of a request: the opcode in network order, and strings with a
NUL behind each. -/
def requestBytes (opcode : OpCode) (strings : List Bytes) : Bytes :=
  wordBytes opcode.value ++ strings.flatMap fun string => string ++ [0]

/-- A buffer whose front holds a request. -/
theorem segments_of_requestBytes {opcode : OpCode}
    (shown : view buffer bytesReceived = requestBytes opcode strings)
    (plain : ∀ string ∈ strings, 0 ∉ string) :
    Segments buffer bytesReceived ShortHeaderView.size strings ∧
      ShortHeaderView.opCd buffer = opcode := by
  have length := congrArg List.length shown
  simp only [view_length, requestBytes, List.length_append,
    wordBytes_length] at length
  constructor
  · refine segments_of_cells (by simp only [ShortHeaderView.size]; omega) ?_
      plain
    rw [cells_eq_drop_view, shown, requestBytes]
    exact List.drop_left' rfl
  · have read := Packet.opCd_eq_opCode shown (by omega)
    rw [ShortHeaderView.opCd]
    rw [HeaderView.opCd] at read
    rw [read, requestBytes, Packet.opCode, HeaderView.opCd,
      ofList, getWord_write _ (Nat.le_refl 0) rfl]

end Requests

end MsmTftp
