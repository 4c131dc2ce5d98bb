import MsmTftp.SessionNegotiation
import MsmTftp.SessionRequest

/-!
# Forming an OACK

`FormOackPacket` asserts that an option is used, unwraps the file size, and
gives up the process when `std::to_chars` has too little room.  None of this
can go wrong where the action runs, and the packet reads back as the options
that were negotiated.
-/

namespace MsmTftp

open CellBuffer TransitionSystem RequestTokenizer

/-- How `FormOackPacket` can fail. -/
inductive OackFailure
  | assertion
  | badOptionalAccess
  | exit
  | overrun
  deriving DecidableEq, Repr

/-- The place in the send buffer the action writes to next. -/
structure OackCursor where
  current : Nat
  buffer : Buffer UInt8

namespace OackCursor

/-- Copy a string and a NUL; nothing in the source tests the room. -/
def copy (value : Bytes) (cursor : OackCursor) :
    Except OackFailure OackCursor :=
  if cursor.current + value.length < kBufferSize then
    .ok
      { current := cursor.current + (value.length + 1)
        buffer := write cursor.buffer cursor.current (value ++ [0]) }
  else .error .overrun

/-- Copy a number; `std::to_chars` fails when the digits do not fit. -/
def copyNumber (value : Nat) (cursor : OackCursor) :
    Except OackFailure OackCursor :=
  if cursor.current + (toChars value).length ≤ kBufferSize then
    cursor.copy (toChars value)
  else .error .exit

/-- Copy one option when it is used; its value is unwrapped here. -/
def copyOption (used : Bool) (key : Bytes) (value : Option Nat)
    (cursor : OackCursor) : Except OackFailure OackCursor :=
  if used then
    (cursor.copy key).bind fun cursor =>
      match value with
      | some value => cursor.copyNumber value
      | none => .error .badOptionalAccess
  else .ok cursor

end OackCursor

/-- `FormOackPacket` with everything in it that can fail. -/
def formOackPacketChecked (data : SessionData) :
    Except OackFailure SessionData :=
  if data.useBlockSizeOption || data.useTimeOutOption ||
      data.useTransferSizeOption then
    let cursor : OackCursor :=
      { current := ShortHeaderView.size
        buffer := HeaderProxy.setOpCd data.sendBuffer .optionAcknowledgment }
    (cursor.copyOption data.useBlockSizeOption
      BlockSizeDecoder.kBlockSizeOption (some data.agreedBlockSize)).bind
        fun cursor =>
    (cursor.copyOption data.useTimeOutOption TimeOutDecoder.kTimeOutOption
      (some (data.timeOut / 1000))).bind fun cursor =>
    (cursor.copyOption data.useTransferSizeOption
      TransferSizeDecoder.kTransferSizeOption data.fileSize).map fun cursor =>
        { data with
          sendBuffer := cursor.buffer
          lastSentBlock := 0
          lastSavedBlock := 0
          sendPacket := cursor.current }
  else .error .assertion

/-- The options of a session that has just negotiated them. -/
structure SessionData.Offers (data : SessionData) : Prop where
  blockSize : 8 ≤ data.agreedBlockSize ∧ data.agreedBlockSize ≤ 65464
  timeOut : data.useTimeOutOption = true →
    ∃ seconds, 1 ≤ seconds ∧ seconds ≤ 255 ∧ data.timeOut = 1000 * seconds
  transferSize : data.useTransferSizeOption = true →
    ∃ size, size < 2 ^ 64 ∧ data.fileSize = some size

section Numbers

theorem toNat_ofNat_of_isDigit {character : Char}
    (digit : character.isDigit = true) :
    (UInt8.ofNat character.toNat).toNat = character.toNat ∧
      isDigit (UInt8.ofNat character.toNat) = true := by
  simp only [Char.isDigit, Bool.and_eq_true, decide_eq_true_eq] at digit
  have least : 48 ≤ character.toNat := digit.1
  have most : character.toNat ≤ 57 := digit.2
  have same : (UInt8.ofNat character.toNat).toNat = character.toNat := by
    rw [UInt8.toNat_ofNat']
    exact Nat.mod_eq_of_lt (by omega)
  refine ⟨same, ?_⟩
  simp only [isDigit, Bool.and_eq_true, decide_eq_true_eq, UInt8.le_iff_toNat_le,
    same]
  exact ⟨least, most⟩

/-- `std::from_chars` adds up the digits as they are printed. -/
theorem decimalValue_asciiBytes {characters : List Char}
    (digits : ∀ character ∈ characters, character.isDigit = true) :
    decimalValue (asciiBytes characters) =
      Nat.ofDigitChars 10 characters 0 := by
  rw [decimalValue, asciiBytes, Nat.ofDigitChars_eq_foldl, List.foldl_map]
  apply List.foldl_ext
  intro value character member
  rw [(toNat_ofNat_of_isDigit (digits character member)).1]
  rfl

theorem numeral_toChars (value : Nat) : Numeral (toChars value) value := by
  have digits : ∀ character ∈ Nat.toDigits 10 value,
      character.isDigit = true := fun _ member =>
    Nat.isDigit_of_mem_toDigits (by omega) (by omega) member
  refine ⟨?_, ?_, ?_⟩
  · simp [toChars, asciiBytes]
  · intro digit member
    obtain ⟨character, printed, rfl⟩ := List.mem_map.mp member
    exact (toNat_ofNat_of_isDigit (digits character printed)).2
  · rw [toChars, decimalValue_asciiBytes digits,
      Nat.ofDigitChars_ten_toDigits]

end Numbers

section Copying

variable {cursor : OackCursor} {used : Bool} {key : Bytes}

theorem copy_eq (value : Bytes)
    (fits : cursor.current + (value.length + 1) ≤ kBufferSize) :
    cursor.copy value =
      .ok
        { current := cursor.current + (value.length + 1)
          buffer := write cursor.buffer cursor.current (value ++ [0]) } :=
  if_pos (by omega)

theorem copyNumber_eq (value : Nat)
    (fits : cursor.current + ((toChars value).length + 1) ≤ kBufferSize) :
    cursor.copyNumber value =
      .ok
        { current := cursor.current + ((toChars value).length + 1)
          buffer :=
            write cursor.buffer cursor.current (toChars value ++ [0]) } := by
  rw [OackCursor.copyNumber, if_pos (by omega)]
  exact copy_eq (toChars value) fits

/-- With enough room the cells of an option are written, and no others. -/
theorem copyOption_eq (value : Nat)
    (fits : cursor.current + (oackOption used key value).length ≤
      kBufferSize) :
    cursor.copyOption used key (some value) =
      .ok
        { current := cursor.current + (oackOption used key value).length
          buffer :=
            write cursor.buffer cursor.current
              (oackOption used key value) } := by
  cases used with
  | false =>
      have nothing : write cursor.buffer cursor.current [] = cursor.buffer := by
        funext cell
        simp [write]
      simp [OackCursor.copyOption, oackOption, nothing]
  | true =>
      simp only [oackOption, if_true, List.length_append, List.length_singleton]
        at fits
      simp only [OackCursor.copyOption, if_true]
      rw [copy_eq key (by omega)]
      simp only [Except.bind]
      rw [copyNumber_eq value (by simp only; omega)]
      simp only [oackOption, if_true, List.length_append,
        List.length_singleton, Nat.add_assoc, ← write_adjacent]

theorem copyOption_congr {value other : Option Nat}
    (same : used = true → value = other) :
    cursor.copyOption used key value = cursor.copyOption used key other := by
  cases used with
  | false => rfl
  | true => rw [same rfl]

end Copying

section Forming

variable {data : SessionData}

theorem SessionData.Offers.inRange (offers : data.Offers) : data.InRange := by
  refine ⟨offers.blockSize, ?_, ?_⟩
  · intro used
    obtain ⟨seconds, _, most, duration⟩ := offers.timeOut used
    omega
  · intro used
    obtain ⟨size, below, found⟩ := offers.transferSize used
    rwa [found]

/-- Where the options are negotiated the action fails nowhere. -/
theorem formOackPacketChecked_eq (options : data.hasOptions = true)
    (offers : data.Offers) :
    formOackPacketChecked data = .ok (formOackPacket data) := by
  have length := offers.inRange.oackOptions_length
  unfold oackOptions at length
  simp only [List.length_append] at length
  have used : (data.useBlockSizeOption || data.useTimeOutOption ||
      data.useTransferSizeOption) = true := options
  have size : data.useTransferSizeOption = true →
      data.fileSize = some (data.fileSize.getD 0) := by
    intro used
    obtain ⟨size, _, found⟩ := offers.transferSize used
    rw [found]
    rfl
  have room : ShortHeaderView.size + 53 ≤ kBufferSize := by decide
  unfold formOackPacketChecked
  rw [if_pos used]
  simp only []
  rw [copyOption_eq _ (by simp only; omega)]
  simp only [Except.bind]
  rw [copyOption_eq _ (by simp only; omega)]
  simp only []
  rw [copyOption_congr size, copyOption_eq _ (by simp only; omega)]
  -- the three options are written one behind the other
  simp only [Except.map, write_adjacent, Nat.add_assoc, ← List.length_append]
  rfl

end Forming

section Negotiating

variable {config : Config} {data : SessionData} {request : RequestReceived}
  {environment : Environment} {machine next : Machine}

theorem SessionData.Pristine.offers (pristine : data.Pristine config) :
    data.Offers := by
  rw [Pristine] at pristine
  rw [pristine]
  refine ⟨?_, ?_, ?_⟩
  · exact show 8 ≤ 512 ∧ 512 ≤ 65464 by omega
  · intro used
    simp [SessionData.fresh] at used
  · intro used
    simp [SessionData.fresh] at used

theorem SessionData.Offers.setTransferSize (offers : data.Offers)
    {path : Bytes} : (setTransferSize environment request path data).Offers := by
  unfold MsmTftp.setTransferSize
  split
  · split
    · rename_i size found
      simp only [getFileSize, Option.map_eq_some_iff] at found
      obtain ⟨size, _, rfl⟩ := found
      exact ⟨offers.blockSize, offers.timeOut,
        fun _ => ⟨_, size.toNat_lt, rfl⟩⟩
    · exact offers
  · exact offers

theorem SessionData.Offers.setTimeOut (offers : data.Offers) :
    (setTimeOut request data).Offers := by
  unfold MsmTftp.setTimeOut
  split
  · rename_i duration decoded
    obtain ⟨seconds, _, bounds⟩ := getTimeOut_eq_some_iff.mp decoded
    exact ⟨offers.blockSize, fun _ => ⟨seconds, bounds⟩,
      offers.transferSize⟩
  · exact offers

theorem SessionData.Offers.setBlockSize (offers : data.Offers) :
    (setBlockSize request data).Offers := by
  unfold MsmTftp.setBlockSize
  split
  · rename_i size decoded
    exact ⟨getBlockSize_bounds decoded, offers.timeOut, offers.transferSize⟩
  · exact offers

/-- Serving a read request leaves options fit for an OACK, also when the
request failed. -/
theorem SessionData.Offers.initServeReadRequest (offers : data.Offers) :
    (initServeReadRequest environment request data).1.Offers := by
  have bound : (openDataSocket environment data).Offers :=
    ⟨offers.blockSize, offers.timeOut, offers.transferSize⟩
  have opened : (openReadFile environment request
      (openDataSocket environment data)).1.Offers := by
    unfold openReadFile
    split
    · split
      · rename_i path _
        have sized : (MsmTftp.setTransferSize environment request path
            (openDataSocket environment data)).Offers :=
          bound.setTransferSize
        exact ⟨sized.blockSize, sized.timeOut, sized.transferSize⟩
      · exact ⟨bound.blockSize, bound.timeOut, bound.transferSize⟩
    · exact ⟨bound.blockSize, bound.timeOut, bound.transferSize⟩
  exact opened.setTimeOut.setBlockSize

/-- The options are negotiated in `ReadRequestReceived`. -/
def Machine.Negotiates (machine : Machine) : Prop :=
  machine.state = .readRequestReceived → machine.data.Offers

theorem Machine.Negotiates.step (negotiates : machine.Negotiates)
    (wellFormed : machine.WellFormed config) {input : Input}
    {effects : List Effect}
    (stepped : machine.step input = some (next, effects)) :
    next.Negotiates := by
  intro received
  cases input with
  | complete completion =>
      cases stepCases stepped with
      | complete settled =>
          rw [settled_iff] at settled
          simp only at received
          simp [received, State.operation] at settled
  | parse =>
      cases stepCases stepped with
      | parse settled => exact negotiates received
  | reject =>
      cases stepCases stepped with
      | reject settled => exact negotiates received
  | fire row environment =>
      obtain ⟨event, exitEffects, cases⟩ := wellFormed.fireCases stepped
      have target := cases.state_eq.symm.trans received
      have firing := cases.firing
      rw [target] at firing
      obtain ⟨accepts, kind, action⟩ := firing.of_readRequestReceived
      obtain ⟨request, rfl⟩ := Event.eq_requestReceived kind
      rw [cases.data_eq (by simp [target]), action]
      exact (wellFormed.pristine accepts).offers.initServeReadRequest

theorem Reaches.negotiates {history : List Step}
    (run : Reaches config history machine) : machine.Negotiates := by
  apply run.history_induction fun _ machine => machine.Negotiates
  · intro received
    simp [Machine.started] at received
  · intro _ before _ _ after negotiates wellFormed stepped
    exact negotiates.step wellFormed stepped

theorem Firing.of_formOackPacket {source target : State}
    {event : Option EventKind}
    (firing : Firing data source event .formOackPacket target) :
    source = .readRequestReceived ∧ target = .dataRead ∧
      data.hasOptions = true := by
  cases firing with
  | announceOptions options => exact ⟨rfl, rfl, options⟩

end Negotiating

/-- The packet reads back as the options: the tokenizer yields the keys and
values of the options used, and the decoders give back what was
negotiated. -/
structure OackReadsBack (data : SessionData) (packet : Bytes) : Prop where
  opcode : Packet.opCode packet = .optionAcknowledgment
  tokens : (first (ofList 0 packet) ShortHeaderView.size
    packet.length).Yields (ofList 0 packet) (oackStrings data)
  blockSize : data.useBlockSizeOption = true →
    BlockSizeDecoder.getBlockSize (toChars data.agreedBlockSize) =
      some data.agreedBlockSize
  timeOut : data.useTimeOutOption = true →
    TimeOutDecoder.getTimeOut (toChars (data.timeOut / 1000)) =
      some data.timeOut
  transferSize : data.useTransferSizeOption = true →
    TransferSizeDecoder.getTransferSize (toChars (data.fileSize.getD 0)) =
      data.fileSize

section Reading

variable {data : SessionData}

theorem outgoing_eq_requestBytes (data : SessionData) :
    (formOackPacket data).outgoing =
      requestBytes .optionAcknowledgment (oackStrings data) := by
  rw [outgoing_formOackPacket, oackOptions_eq_terminated]
  rfl

/-- An OACK has the format of a request, so that it reads back as one. -/
theorem SessionData.Offers.readsBack (offers : data.Offers) :
    OackReadsBack data (formOackPacket data).outgoing := by
  have length := offers.inRange.oackOptions_length
  have packet := outgoing_eq_requestBytes data
  have fits : (formOackPacket data).outgoing.length ≤ kBufferSize := by
    rw [outgoing_formOackPacket, List.length_append, wordBytes_length,
      kBufferSize]
    omega
  obtain ⟨segments, _⟩ := segments_of_requestBytes
    ((view_write_zero (fill 0) _).trans packet)
    fun _ member => zero_not_mem_of_oackStrings member
  refine ⟨opCode_formOackPacket, segments.first.yields (by simpa using fits),
    ?_, ?_, ?_⟩
  · intro used
    exact getBlockSize_eq_some_iff.mpr
      ⟨numeral_toChars data.agreedBlockSize, offers.blockSize⟩
  · intro used
    obtain ⟨seconds, least, most, duration⟩ := offers.timeOut used
    have whole : data.timeOut / 1000 = seconds := by omega
    exact getTimeOut_eq_some_iff.mpr
      ⟨seconds, whole ▸ numeral_toChars _, least, most, duration⟩
  · intro used
    obtain ⟨size, below, found⟩ := offers.transferSize used
    rw [found]
    exact getTransferSize_eq_some_iff.mpr ⟨numeral_toChars size, below⟩

end Reading

/-- Wherever `FormOackPacket` runs, its assertion holds, the file size has a
value when it is used, nothing in it fails, and the packet it forms reads back
as the options. -/
theorem oack_reads_back (config : Config) (past : List Step) (step : Step)
    (run : Reaches config past step.before)
    (admitted : session.Admits step) (forms : step.Fires .formOackPacket) :
    step.before.data.hasOptions = true ∧
    (step.before.data.useTransferSizeOption = true →
      ∃ size, step.before.data.fileSize = some size) ∧
    formOackPacketChecked step.before.data = .ok step.after.data ∧
    OackReadsBack step.before.data step.after.data.outgoing := by
  obtain ⟨before, input, outputs, after⟩ := step
  obtain ⟨row, environment, rfl, action⟩ := forms
  obtain ⟨event, exitEffects, cases⟩ := run.wellFormed.fireCases admitted
  have firing := cases.firing
  rw [action] at firing
  obtain ⟨received, target, options⟩ := firing.of_formOackPacket
  have offers := run.negotiates received
  have formed := cases.data_eq (by simp [target])
  rw [action, Action.run] at formed
  rw [formed]
  refine ⟨options, ?_, formOackPacketChecked_eq options offers,
    offers.readsBack⟩
  intro used
  obtain ⟨size, _, found⟩ := offers.transferSize used
  exact ⟨size, found⟩

/-- A read request of the client with all three options. -/
def requestWithOptions : Datagram where
  bytes := requestBytes .readRequest
    [asciiBytes ['f'], kOctetMode, BlockSizeDecoder.kBlockSizeOption,
      asciiBytes ['1', '0', '2', '4'], TimeOutDecoder.kTimeOutOption,
      asciiBytes ['3'], TransferSizeDecoder.kTransferSizeOption,
      asciiBytes ['0']]
  fits := by decide +kernel

/-- The OACK for a file of 1013 bytes. -/
theorem oack_of_options :
    ∃ step : Step, step.Fires .formOackPacket ∧
      formOackPacketChecked step.before.data = .ok step.after.data ∧
      OackReadsBack step.before.data step.after.data.outgoing ∧
      oackStrings step.before.data =
        [BlockSizeDecoder.kBlockSizeOption, asciiBytes ['1', '0', '2', '4'],
          TimeOutDecoder.kTimeOutOption, asciiBytes ['3'],
          TransferSizeDecoder.kTransferSizeOption,
          asciiBytes ['1', '0', '1', '3']] := by
  obtain ⟨past, step, run, admitted, passes⟩ := exists_step_of_converse
    .loopback [(.accepted .client requestWithOptions,
      { fileSize := fun _ => some 1013 })]
    (fun _ step => step.fires .formOackPacket &&
      decide (oackStrings step.before.data =
        [BlockSizeDecoder.kBlockSizeOption, asciiBytes ['1', '0', '2', '4'],
          TimeOutDecoder.kTimeOutOption, asciiBytes ['3'],
          TransferSizeDecoder.kTransferSizeOption,
          asciiBytes ['1', '0', '1', '3']])) (by decide +kernel)
  rw [Bool.and_eq_true, decide_eq_true_iff, ← Step.fires_iff] at passes
  obtain ⟨forms, strings⟩ := passes
  obtain ⟨_, _, checked, readsBack⟩ :=
    oack_reads_back .loopback past step run admitted forms
  exact ⟨step, forms, checked, readsBack, strings⟩

end MsmTftp
