import MsmTftp.SessionOrigin

/-!
# The packets handed to the socket

A packet is sent only while a transfer is served, an action of that transfer
formed it, and it goes to the endpoint the request came from.  The range of
the block size decoder keeps every DATA packet within the send buffer, and the
ranges of the other decoders do the same for an OACK.
-/

namespace MsmTftp

open CellBuffer TransitionSystem

/-- Strings with a NUL behind each. -/
def terminated (strings : List Bytes) : Bytes :=
  strings.flatMap fun string => string ++ [0]

/-- What a packet of a transfer with the given block size may look like. -/
inductive Packet.WellFormed (size : Nat) (packet : Bytes) : Prop
  | data (opcode : Packet.opCode packet = .data)
      (least : 8 ≤ size) (most : size ≤ 65464)
      (header : 4 ≤ packet.length) (payload : packet.length ≤ 4 + size)
  | acknowledgment (opcode : Packet.opCode packet = .acknowledgment)
      (length : packet.length = 4)
  | error (opcode : Packet.opCode packet = .error)
      (length : packet.length = 5) (ends : packet.getLast? = some 0)
  | optionAcknowledgment
      (opcode : Packet.opCode packet = .optionAcknowledgment)
      {strings : List Bytes} (options : packet.drop 2 = terminated strings)
      (used : strings ≠ []) (pairs : 2 ∣ strings.length)
      (plain : ∀ string ∈ strings, 0 ∉ string)

/-- The packet that the step forms.  A block read that fails forms none. -/
def Step.formed (step : Step) : Option Bytes :=
  if step.fires .formAckPacket || step.fires .formErrorPacket ||
      step.fires .formOackPacket || step.fires .formProtocolErrorPacket ||
        step.fires .formDataPacket && !step.after.data.hasError then
    some step.after.data.outgoing
  else none

/-- The packet is well formed, fits the send buffer and was formed by a step
of the history. -/
structure FitToSend (size : Nat) (history : List Step) (packet : Bytes) :
    Prop where
  wellFormed : Packet.WellFormed size packet
  fits : packet.length ≤ kBufferSize
  formed : ∃ step ∈ history, Step.formed step = some packet

/-- The negotiated values are in the ranges of their decoders. -/
structure SessionData.InRange (data : SessionData) : Prop where
  blockSize : 8 ≤ data.agreedBlockSize ∧ data.agreedBlockSize ≤ 65464
  timeOut : data.useTimeOutOption = true → data.timeOut / 1000 < 256
  transferSize : data.useTransferSizeOption = true →
    data.fileSize.getD 0 < 2 ^ 64

/-- What the session may send from a state. -/
def HoldsPacket (history : List Step) (data : SessionData) : State → Prop
  | .sendingAck | .waitingForData | .sendingData | .waitingForAck
  | .sendingError => FitToSend data.agreedBlockSize history data.outgoing
  | .dataRead => data.hasError = false →
      FitToSend data.agreedBlockSize history data.outgoing
  | _ => True

section Options

variable {data : SessionData} {environment : Environment}
  {request : RequestReceived}

theorem zero_not_mem_toChars (value : Nat) : 0 ∉ toChars value := by
  intro member
  obtain ⟨character, digit, zero⟩ := List.mem_map.mp member
  have isDigit : character.isDigit = true :=
    Nat.isDigit_of_mem_toDigits (by omega) (by omega) digit
  simp only [Char.isDigit, Bool.and_eq_true, decide_eq_true_eq] at isDigit
  obtain ⟨least, most⟩ := isDigit
  have least : 48 ≤ character.toNat := least
  have most : character.toNat ≤ 57 := most
  have same := congrArg UInt8.toNat zero
  rw [UInt8.toNat_ofNat'] at same
  have none : character.toNat % 256 = 0 := same
  omega

theorem toChars_length_le {value count : Nat} (positive : 0 < count)
    (below : value < 10 ^ count) : (toChars value).length ≤ count := by
  rw [toChars, asciiBytes, List.length_map]
  exact (Nat.length_toDigits_le_iff (by omega) positive).mpr below

/-- The key and the value of one option of an OACK. -/
def optionStrings (used : Bool) (key : Bytes) (value : Nat) : List Bytes :=
  if used then [key, toChars value] else []

/-- The keys and values of the options used. -/
def oackStrings (data : SessionData) : List Bytes :=
  optionStrings data.useBlockSizeOption BlockSizeDecoder.kBlockSizeOption
      data.agreedBlockSize ++
    optionStrings data.useTimeOutOption TimeOutDecoder.kTimeOutOption
      (data.timeOut / 1000) ++
    optionStrings data.useTransferSizeOption
      TransferSizeDecoder.kTransferSizeOption (data.fileSize.getD 0)

section OneOption

variable (used : Bool) (key : Bytes) (value : Nat)

theorem terminated_append (first second : List Bytes) :
    terminated (first ++ second) = terminated first ++ terminated second :=
  List.flatMap_append

theorem terminated_optionStrings :
    terminated (optionStrings used key value) =
      oackOption used key value := by
  cases used <;> simp [terminated, optionStrings, oackOption]

theorem two_dvd_optionStrings_length :
    2 ∣ (optionStrings used key value).length := by
  cases used <;> simp [optionStrings]

theorem zero_not_mem_of_optionStrings {string : Bytes} (plain : 0 ∉ key)
    (member : string ∈ optionStrings used key value) : 0 ∉ string := by
  cases used with
  | false => simp [optionStrings] at member
  | true =>
      simp only [optionStrings, if_true, List.mem_cons, List.not_mem_nil,
        or_false] at member
      rcases member with rfl | rfl
      · exact plain
      · exact zero_not_mem_toChars value

end OneOption

theorem oackOptions_eq_terminated (data : SessionData) :
    oackOptions data = terminated (oackStrings data) := by
  simp only [oackStrings, terminated_append, terminated_optionStrings]
  rfl

theorem two_dvd_oackStrings_length (data : SessionData) :
    2 ∣ (oackStrings data).length := by
  simp only [oackStrings, List.length_append]
  exact Nat.dvd_add (Nat.dvd_add (two_dvd_optionStrings_length _ _ _)
    (two_dvd_optionStrings_length _ _ _)) (two_dvd_optionStrings_length _ _ _)

theorem oackStrings_ne_nil (options : data.hasOptions = true) :
    oackStrings data ≠ [] := by
  intro none
  simp only [oackStrings, optionStrings, List.append_eq_nil_iff,
    ite_eq_right_iff, reduceCtorEq, imp_false, Bool.not_eq_true] at none
  simp [SessionData.hasOptions, none] at options

theorem zero_not_mem_of_oackStrings {string : Bytes}
    (member : string ∈ oackStrings data) : 0 ∉ string := by
  rcases List.mem_append.mp member with earlier | last
  · rcases List.mem_append.mp earlier with first | second
    · exact zero_not_mem_of_optionStrings _ _ _ (by decide) first
    · exact zero_not_mem_of_optionStrings _ _ _ (by decide) second
  · exact zero_not_mem_of_optionStrings _ _ _ (by decide) last

/-- One option of an OACK is not longer than its key and its digits. -/
theorem oackOption_length_le (used : Bool) (key : Bytes) {value count : Nat}
    (positive : 0 < count) (below : used = true → value < 10 ^ count) :
    (oackOption used key value).length ≤ key.length + count + 2 := by
  cases used with
  | false => exact Nat.zero_le _
  | true =>
      have digits := toChars_length_le positive (below rfl)
      simp only [oackOption, if_true, List.length_append, List.length_cons,
        List.length_nil]
      omega

/-- An OACK fits the send buffer with room to spare. -/
theorem SessionData.InRange.oackOptions_length (inRange : data.InRange) :
    (oackOptions data).length ≤ 53 := by
  have blockSize := oackOption_length_le data.useBlockSizeOption
    BlockSizeDecoder.kBlockSizeOption (show 0 < 5 by omega)
    fun _ => show data.agreedBlockSize < 10 ^ 5 by
      have most := inRange.blockSize.2
      omega
  have timeOut := oackOption_length_le data.useTimeOutOption
    TimeOutDecoder.kTimeOutOption (show 0 < 3 by omega)
    fun used => show data.timeOut / 1000 < 10 ^ 3 by
      have most := inRange.timeOut used
      omega
  have transferSize := oackOption_length_le data.useTransferSizeOption
    TransferSizeDecoder.kTransferSizeOption (show 0 < 20 by omega)
    fun used => show data.fileSize.getD 0 < 10 ^ 20 by
      have most := inRange.transferSize used
      omega
  have keys : BlockSizeDecoder.kBlockSizeOption.length = 7 ∧
      TimeOutDecoder.kTimeOutOption.length = 7 ∧
        TransferSizeDecoder.kTransferSizeOption.length = 5 := by
    decide
  unfold oackOptions
  simp only [List.length_append]
  omega

end Options

section Forming

variable {data : SessionData} {environment : Environment} {size : Nat}
  {history : List Step}

theorem wellFormed_ackPacket (number : UInt16) :
    Packet.WellFormed size (Packet.ackPacket number) :=
  .acknowledgment (Packet.opCode_ackPacket number)
    (Packet.ackPacket_length number)

theorem wellFormed_errorPacket (code : UInt16) :
    Packet.WellFormed size (Packet.errorPacket code) :=
  .error (Packet.opCode_errorPacket code) (by simp [Packet.errorPacket])
    (by simp [Packet.errorPacket])

theorem dataPacket_length (number : UInt16) (payload : Bytes) :
    (Packet.dataPacket number payload).length = 4 + payload.length := by
  simp [Packet.dataPacket]

theorem wellFormed_dataPacket (number : UInt16) {payload : Bytes}
    (bounds : 8 ≤ size ∧ size ≤ 65464) (fits : payload.length ≤ size) :
    Packet.WellFormed size (Packet.dataPacket number payload) := by
  have length := dataPacket_length number payload
  exact .data (Packet.opCode_dataPacket number payload) bounds.1 bounds.2
    (by omega) (by omega)

theorem wellFormed_oack (options : data.hasOptions = true) :
    Packet.WellFormed size (formOackPacket data).outgoing := by
  refine .optionAcknowledgment opCode_formOackPacket ?_
    (oackStrings_ne_nil options) (two_dvd_oackStrings_length data)
    fun _ member => zero_not_mem_of_oackStrings member
  rw [outgoing_formOackPacket, ← oackOptions_eq_terminated]
  exact List.drop_left' (wordBytes_length _)

theorem nextBlock_length_le (data : SessionData)
    (environment : Environment) :
    (data.nextBlock environment).length ≤ data.agreedBlockSize := by
  simp only [SessionData.nextBlock, FileStream.read]
  split
  · split
    · simp only [List.length_take]
      omega
    · simp only [List.length_take]
      omega
  · exact Nat.zero_le _

theorem FitToSend.mono {packet : Bytes}
    (fit : FitToSend size history packet) (step : Step) :
    FitToSend size (history ++ [step]) packet := by
  obtain ⟨wellFormed, fits, former, member, formed⟩ := fit
  exact ⟨wellFormed, fits, former, List.mem_append_left _ member, formed⟩

/-- What a step formed may be sent once it is well formed and fits. -/
theorem fitToSend_of_formed {packet : Bytes} {step : Step}
    (wellFormed : Packet.WellFormed size packet)
    (fits : packet.length ≤ kBufferSize)
    (formed : step.formed = some packet) :
    FitToSend size (history ++ [step]) packet :=
  ⟨wellFormed, fits, step, by simp, formed⟩

end Forming

section Ranges

variable {data : SessionData} {environment : Environment}
  {request : RequestReceived} {path : Bytes} {event : Option Event}
  {action : Action}

theorem SessionData.InRange.setTransferSize (inRange : data.InRange) :
    (setTransferSize environment request path data).InRange := by
  obtain ⟨blockSize, timeOut, transferSize⟩ := inRange
  unfold MsmTftp.setTransferSize
  split
  · split
    · rename_i size found
      refine ⟨blockSize, timeOut, ?_⟩
      intro _
      simp only [getFileSize, Option.map_eq_some_iff] at found
      obtain ⟨size, _, rfl⟩ := found
      exact size.toNat_lt
    · exact ⟨blockSize, timeOut, transferSize⟩
  · exact ⟨blockSize, timeOut, transferSize⟩

theorem getTimeOut_bound {value : Bytes} {duration : Nat}
    (decoded : TimeOutDecoder.getTimeOut value = some duration) :
    duration / 1000 < 256 := by
  simp only [TimeOutDecoder.getTimeOut] at decoded
  split at decoded
  · rename_i result read
    have below : result < 2 ^ 8 := by
      simp only [fromChars] at read
      split at read
      · simp at read
      · split at read
        · simp only [Option.some.injEq, Prod.mk.injEq] at read
          omega
        · simp at read
    split at decoded
    · simp at decoded
    · rw [Option.some.injEq] at decoded
      omega
  · simp at decoded

theorem SessionData.InRange.setTimeOut (inRange : data.InRange) :
    (setTimeOut request data).InRange := by
  obtain ⟨blockSize, timeOut, transferSize⟩ := inRange
  unfold MsmTftp.setTimeOut
  split
  · rename_i duration decoded
    exact ⟨blockSize, fun _ => getTimeOut_bound decoded, transferSize⟩
  · exact ⟨blockSize, timeOut, transferSize⟩

theorem SessionData.InRange.setBlockSize (inRange : data.InRange) :
    (setBlockSize request data).InRange := by
  obtain ⟨blockSize, timeOut, transferSize⟩ := inRange
  unfold MsmTftp.setBlockSize
  split
  · rename_i size decoded
    exact ⟨getBlockSize_bounds decoded, timeOut, transferSize⟩
  · exact ⟨blockSize, timeOut, transferSize⟩

theorem SessionData.InRange.initServeReadRequest (inRange : data.InRange) :
    (initServeReadRequest environment request data).1.InRange := by
  have bound : (openDataSocket environment data).InRange :=
    ⟨inRange.blockSize, inRange.timeOut, inRange.transferSize⟩
  have opened : (openReadFile environment request
      (openDataSocket environment data)).1.InRange := by
    unfold openReadFile
    split
    · split
      · rename_i path _
        have sized : (MsmTftp.setTransferSize environment request path
            (openDataSocket environment data)).InRange :=
          bound.setTransferSize
        exact ⟨sized.blockSize, sized.timeOut, sized.transferSize⟩
      · exact ⟨bound.blockSize, bound.timeOut, bound.transferSize⟩
    · exact ⟨bound.blockSize, bound.timeOut, bound.transferSize⟩
  exact opened.setTimeOut.setBlockSize

theorem SessionData.InRange.run (inRange : data.InRange)
    (environment : Environment) (event : Option Event)
    (ongoing : action ≠ .reset) :
    (action.run environment event data).1.InRange := by
  by_cases reads : action = .initServeReadRequest
  · subst reads
    simp only [Action.run]
    split
    · exact inRange.initServeReadRequest
    · exact inRange
  by_cases writes : action = .initServeWriteRequest
  · subst writes
    simp only [Action.run]
    split
    · rename_i request
      obtain ⟨_, _, frame⟩ :=
        initServeWriteRequest_frame environment data request
      rw [frame]
      exact ⟨inRange.blockSize, inRange.timeOut, inRange.transferSize⟩
    · exact inRange
  · have same := run_keepsTransfer environment event data ongoing reads writes
    refine ⟨?_, ?_, ?_⟩
    · rw [same.blockSize]
      exact inRange.blockSize
    · rw [same.options, same.timeOut]
      exact inRange.timeOut
    · rw [same.options, same.fileSize]
      exact inRange.transferSize

end Ranges

section Sending

variable {data : SessionData} {source target state : State}
  {event : Option EventKind} {action : Action} {environment : Environment}
  {happens : Option Event} {history : List Step} {step : Step}

theorem fitToSend_formDataPacket (inRange : data.InRange)
    (noError : (formDataPacket environment data).hasError = false)
    (formed : step.formed =
      some (formDataPacket environment data).outgoing) :
    FitToSend (formDataPacket environment data).agreedBlockSize
      (history ++ [step]) (formDataPacket environment data).outgoing := by
  have delivered : (data.streamAfterRead environment).bad = false := by
    cases bad : (data.streamAfterRead environment).bad with
    | false => rfl
    | true =>
        rw [formDataPacket_of_bad bad] at noError
        simp [SessionData.hasError] at noError
  have outgoing := outgoing_formDataPacket delivered
  have same : (formDataPacket environment data).agreedBlockSize =
      data.agreedBlockSize := by
    rw [formDataPacket_of_not_bad delivered]
  have length := nextBlock_length_le data environment
  have bounds := inRange.blockSize
  rw [same]
  refine fitToSend_of_formed ?_ ?_ formed
  · rw [outgoing]
    exact wellFormed_dataPacket _ bounds length
  · rw [outgoing, dataPacket_length, kBufferSize]
    omega

theorem fitToSend_formErrorPacketWith (code : UInt16) {size : Nat}
    (formed : step.formed = some (formErrorPacketWith code data).outgoing) :
    FitToSend size (history ++ [step])
      (formErrorPacketWith code data).outgoing := by
  refine fitToSend_of_formed ?_ ?_ formed
  · rw [outgoing_formErrorPacketWith]
    exact wellFormed_errorPacket code
  · rw [outgoing_formErrorPacketWith]
    simp [Packet.errorPacket, kBufferSize]

theorem fitToSend_formAckPacket {size : Nat}
    (formed : step.formed = some (formAckPacket data).outgoing) :
    FitToSend size (history ++ [step]) (formAckPacket data).outgoing := by
  refine fitToSend_of_formed ?_ ?_ formed
  · rw [outgoing_formAckPacket]
    exact wellFormed_ackPacket _
  · rw [outgoing_formAckPacket, Packet.ackPacket_length, kBufferSize]
    omega

theorem fitToSend_formOackPacket (inRange : data.InRange) {size : Nat}
    (options : data.hasOptions = true)
    (formed : step.formed = some (formOackPacket data).outgoing) :
    FitToSend size (history ++ [step]) (formOackPacket data).outgoing := by
  refine fitToSend_of_formed (wellFormed_oack options) ?_ formed
  have length := inRange.oackOptions_length
  rw [outgoing_formOackPacket, List.length_append, wordBytes_length,
    kBufferSize]
  omega

/-- Rows other than `Reset` leave something to send that was formed in the
transfer. -/
theorem HoldsPacket.fire (holds : HoldsPacket history data source)
    (environment : Environment) (happens : Option Event)
    (inRange : data.InRange)
    (firing : Firing data source event action target)
    (ongoing : action ≠ .reset) (busy : source.busy = true)
    (formed : (action = .formAckPacket ∨ action = .formErrorPacket ∨
        action = .formOackPacket ∨ action = .formProtocolErrorPacket ∨
          action = .formDataPacket ∧
            (action.run environment happens data).1.hasError = false) →
      step.formed =
        some (action.run environment happens data).1.outgoing) :
    HoldsPacket (history ++ [step]) (action.run environment happens data).1
      target := by
  cases firing with
  | grantWrite noError => exact fitToSend_formAckPacket (formed (by simp))
  | refuseWrite error =>
      exact fitToSend_formErrorPacketWith _ (formed (by simp))
  | ackSent => exact FitToSend.mono holds step
  | resendAck retry => exact FitToSend.mono holds step
  | notData agreed other =>
      exact fitToSend_formErrorPacketWith _ (formed (by simp))
  | oldData ignored => exact FitToSend.mono holds step
  | newData agreed received new => trivial
  | dataSaved noError => exact fitToSend_formAckPacket (formed (by simp))
  | saveFailed error => exact fitToSend_formErrorPacketWith _ (formed (by simp))
  | firstBlock noError plain =>
      intro delivered
      exact fitToSend_formDataPacket inRange delivered
        (formed (by simpa using delivered))
  | announceOptions options =>
      intro _
      exact fitToSend_formOackPacket inRange options (formed (by simp))
  | refuseRead error => exact fitToSend_formErrorPacketWith _ (formed (by simp))
  | blockRead noError => exact FitToSend.mono (holds noError) step
  | readFailed error => exact fitToSend_formErrorPacketWith _ (formed (by simp))
  | dataSent => exact FitToSend.mono holds step
  | resendData retry => exact FitToSend.mono holds step
  | notAck agreed other =>
      exact fitToSend_formErrorPacketWith _ (formed (by simp))
  | oldAck ignored => exact FitToSend.mono holds step
  | nextBlock agreed received current more =>
      intro delivered
      exact fitToSend_formDataPacket inRange delivered
        (formed (by simpa using delivered))
  | errorSent => exact absurd rfl ongoing
  | giveUpWrite exhausted => exact absurd rfl ongoing
  | giveUpRead exhausted => exact absurd rfl ongoing
  | finish final => exact absurd rfl ongoing
  | restart => trivial
  | acceptingFailed error => simp [State.busy] at busy
  | acceptWrite noError opcode => trivial
  | acceptRead noError opcode => trivial

theorem HoldsPacket.start (completion : Completion)
    (holds : HoldsPacket history data state) :
    HoldsPacket history (completion.start data).1 state := by
  cases completion <;> exact holds

theorem HoldsPacket.mono (holds : HoldsPacket history data state)
    (step : Step) : HoldsPacket (history ++ [step]) data state := by
  cases state with
  | dataRead => exact fun noError => FitToSend.mono (holds noError) step
  | sendingAck => exact FitToSend.mono holds step
  | waitingForData => exact FitToSend.mono holds step
  | sendingData => exact FitToSend.mono holds step
  | waitingForAck => exact FitToSend.mono holds step
  | sendingError => exact FitToSend.mono holds step
  | _ => trivial

theorem HoldsPacket.of_sends (holds : HoldsPacket history data state)
    (sends : state.operation = some .send) :
    FitToSend data.agreedBlockSize history data.outgoing := by
  cases state with
  | sendingAck => exact holds
  | sendingData => exact holds
  | sendingError => exact holds
  | _ => simp [State.operation] at sends

end Sending

section Transfers

variable {config : Config} {action : Action} {past rest history : List Step}
  {accept : Step} {machine next : Machine} {input : Input}
  {effects : List Effect} {endpoint : Endpoint}

theorem SessionData.Pristine.inRange {data : SessionData}
    (pristine : data.Pristine config) : data.InRange := by
  rw [Pristine] at pristine
  rw [pristine]
  refine ⟨⟨?_, ?_⟩, fun used => ?_, fun used => ?_⟩
  · show 8 ≤ 512
    omega
  · show 512 ≤ 65464
    omega
  · exact absurd (show false = true from used) (by decide)
  · exact absurd (show false = true from used) (by decide)

theorem BusyCases.inRange (cases : BusyCases machine input effects next)
    (inRange : machine.data.InRange) : next.data.InRange := by
  cases cases with
  | @complete completion idle uses drives =>
      obtain ⟨blockSize, timeOut, transferSize⟩ := inRange
      cases completion <;> exact ⟨blockSize, timeOut, transferSize⟩
  | @fire row environment event exitEffects effects next cases ongoing target
      data_eq =>
      rw [data_eq]
      exact inRange.run environment event ongoing

theorem HoldsPacket.step
    (holds : HoldsPacket history machine.data machine.state)
    (inRange : machine.data.InRange) (busy : machine.state.busy = true)
    (cases : BusyCases machine input effects next) :
    HoldsPacket (history ++ [⟨machine, input, effects, next⟩]) next.data
      next.state := by
  cases cases with
  | complete idle uses drives => exact (holds.start _).mono _
  | @fire row environment event exitEffects effects next cases ongoing target
      data_eq =>
      rw [cases.state_eq, data_eq]
      apply holds.fire environment event inRange cases.firing ongoing busy
      intro forms
      rw [← data_eq] at forms ⊢
      simp only [Step.formed, Step.fires]
      rcases forms with forms | forms | forms | forms | ⟨forms, noError⟩
      · simp [forms]
      · simp [forms]
      · simp [forms]
      · simp [forms]
      · simp [forms, noError]

theorem TransferFrom.holdsPacket
    (transfer : TransferFrom config endpoint action past accept rest
      machine) :
    machine.data.InRange ∧
      HoldsPacket rest machine.data machine.state := by
  obtain ⟨serving, serves, _⟩ := transfer
  obtain ⟨environment, request, pristine, next_eq⟩ := serving.start serves
  refine serving.history_invariant serves (fun _ => True)
    (fun _ _ => trivial)
    (fun history machine => machine.data.InRange ∧
      HoldsPacket history machine.data machine.state) ⟨?_, ?_⟩ ?_
  · have target : (if action = .initServeReadRequest then
        State.readRequestReceived else .writeRequestReceived) ≠
          .accepting := by
      split <;> simp
    rw [next_eq, entering_data target]
    apply pristine.inRange.run environment _
    intro resets
    rw [resets] at serves
    simp at serves
  · rw [next_eq]
    split <;> trivial
  · rintro history machine input effects next _ busy ⟨inRange, holds⟩ cases _
    exact ⟨cases.inRange inRange, holds.step inRange busy cases⟩

/-- The transfer that a step belongs to. -/
theorem Reaches.transfer_of_busy {step : Step}
    (run : Reaches config (history ++ [step]) machine)
    (busy : step.before.state.busy = true) :
    session.Admits step ∧ ∃ action past accept rest,
      history = past ++ accept :: rest ∧
        TransferFrom config step.before.data.agreedRemoteEndpoint action past
          accept rest step.before := by
  obtain ⟨before, admitted, _⟩ := System.run_concat.mp run
  exact ⟨admitted, (Reaches.origin before).busy busy⟩

theorem Firing.busy_of_formDataPacket {data : SessionData}
    {source target : State} {event : Option EventKind}
    (firing : Firing data source event .formDataPacket target) :
    source.busy = true := by
  cases firing <;> rfl

theorem busy_of_sends {packet : Bytes} {receiver : Endpoint}
    (wellFormed : machine.WellFormed config)
    (stepped : machine.step input = some (next, effects))
    (sent : (packet, receiver) ∈ effects.filterMap Effect.packet) :
    machine.state.busy = true ∧ next.state.operation = some .send ∧
      ¬ Step.Fires ⟨machine, input, effects, next⟩ .reset ∧
        packet = next.data.outgoing ∧
          receiver = next.data.agreedRemoteEndpoint := by
  by_cases fires : ∃ row environment, input = .fire row environment
  · obtain ⟨row, environment, rfl⟩ := fires
    obtain ⟨event, exitEffects, cases⟩ := wellFormed.fireCases stepped
    rw [cases.packets] at sent
    split at sent
    · rename_i sends
      have leaves : row.target ≠ .accepting := by
        intro accepts
        simp [accepts, State.operation] at sends
      rw [← cases.data_eq leaves, List.mem_singleton, Prod.mk.injEq] at sent
      refine ⟨?_, by rw [cases.state_eq]; exact sends, ?_, sent⟩
      · have firing := cases.firing
        cases source : machine.state with
        | accepting =>
            rw [source] at firing
            rcases firing.of_accepting with ⟨_, target⟩ | ⟨_, _, serves⟩
            · simp [target, State.operation] at sends
            · rw [(firing.of_initServe serves).2.2] at sends
              split at sends <;> simp [State.operation] at sends
        | resetted =>
            rw [source] at firing
            rw [firing.target_of_resetted] at sends
            simp [State.operation] at sends
        | _ => rfl
      · rintro ⟨other, answers, taken, resets⟩
        have firing := cases.firing
        obtain ⟨rfl, rfl⟩ := Input.fire.injEq _ _ _ _ ▸ taken
        rw [resets] at firing
        rw [firing.target_of_reset] at sends
        simp [State.operation] at sends
    · simp at sent
  · obtain ⟨_, packets, _⟩ := silent_of_not_fire stepped
      fun row environment taken => fires ⟨row, environment, taken⟩
    simp [packets] at sent

end Transfers

/-- Every packet that is sent was formed by an action of the current transfer,
is well formed, lies within the send buffer and goes to the endpoint the
request came from; and every block read fits the send buffer. -/
theorem sent_packets_well_formed (config : Config) (history : List Step)
    (step : Step) (machine : Machine)
    (run : Reaches config (history ++ [step]) machine) :
    (∀ packet receiver,
      (packet, receiver) ∈ step.outputs.filterMap Effect.packet →
        ∃ action past accept rest, history = past ++ accept :: rest ∧
          TransferFrom config receiver action past accept rest step.before ∧
            FitToSend step.after.data.agreedBlockSize (rest ++ [step])
              packet) ∧
    (step.Fires .formDataPacket →
      HeaderView.size + step.before.data.agreedBlockSize ≤ kBufferSize) := by
  have wellFormed : step.before.WellFormed config :=
    Reaches.wellFormed (System.run_concat.mp run).1
  constructor
  · intro packet receiver sent
    have admitted := (System.run_concat.mp run).2.1
    obtain ⟨busy, sends, ongoing, rfl, rfl⟩ :=
      busy_of_sends wellFormed admitted sent
    obtain ⟨_, action, past, accept, rest, rfl, transfer⟩ :=
      run.transfer_of_busy busy
    have cases := wellFormed.busyCases busy admitted ongoing
    have later : TransferFrom config step.before.data.agreedRemoteEndpoint
        action past accept (rest ++ [step]) step.after :=
      ⟨transfer.serving.extend ⟨rfl, admitted, rfl⟩ (by simpa using ongoing),
        transfer.serves, transfer.origin⟩
    refine ⟨action, past, accept, rest, rfl, ?_,
      later.holdsPacket.2.of_sends sends⟩
    rw [cases.agreedRemoteEndpoint]
    exact transfer
  · rintro ⟨row, environment, taken, forms⟩
    have admitted := (System.run_concat.mp run).2.1
    obtain ⟨machine, input, effects, next⟩ := step
    have taken : input = .fire row environment := taken
    subst taken
    obtain ⟨event, exitEffects, cases⟩ := wellFormed.fireCases admitted
    have firing := cases.firing
    rw [forms] at firing
    have busy := firing.busy_of_formDataPacket
    obtain ⟨_, action, past, accept, rest, rfl, transfer⟩ :=
      run.transfer_of_busy busy
    have most := transfer.holdsPacket.1.blockSize.2
    rw [HeaderView.size, kBufferSize]
    simp only at most ⊢
    omega

section Examples

/-- The first block of a download is well formed and goes to the client. -/
theorem first_block_well_formed :
    ∃ history, ∃ step : Step,
      Reaches .loopback (history ++ [step]) step.after ∧
        ∃ packet, (packet, Endpoint.client) ∈
            step.outputs.filterMap Effect.packet ∧
          Packet.opCode packet = .data ∧
            ∃ action past accept rest, history = past ++ accept :: rest ∧
              TransferFrom .loopback .client action past accept rest
                step.before ∧
                FitToSend step.after.data.agreedBlockSize (rest ++ [step])
                  packet := by
  obtain ⟨history, step, before, admitted, passes⟩ :=
    exists_step_of_converse .loopback
      [(.accepted .client (requestOf .readRequest), {})]
      (fun _ step => (step.outputs.filterMap Effect.packet).any fun sent =>
        decide (sent.2 = .client ∧ Packet.opCode sent.1 = .data))
      (by decide +kernel)
  simp only [List.any_eq_true, decide_eq_true_eq] at passes
  obtain ⟨⟨packet, receiver⟩, sent, rfl, opcode⟩ := passes
  have run : Reaches .loopback (history ++ [step]) step.after :=
    before.extend admitted
  exact ⟨history, step, run, packet, sent, opcode,
    (sent_packets_well_formed .loopback history step step.after run).1 packet
      .client sent⟩

end Examples

end MsmTftp
