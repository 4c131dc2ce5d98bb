import Mathlib.Data.List.TakeWhile
import MsmTftp.SessionDownloadNumbers
import MsmTftp.SessionSending

/-!
# Negotiated options

A read request with a valid option is answered by an OACK.  The OACK lists the
valid options with the values the client asked for, and the transfer keeps to
them: the blocks have the announced size, waits last the announced time-out,
and a transfer that completes has sent as many bytes as announced.
-/

namespace MsmTftp

open CellBuffer TransitionSystem TransferBlocks

/-- The string is a decimal numeral of the value. -/
def Numeral (string : Bytes) (value : Nat) : Prop :=
  string ≠ [] ∧ (∀ digit ∈ string, isDigit digit = true) ∧
    decimalValue string = value

instance (string : Bytes) (value : Nat) : Decidable (Numeral string value) :=
  inferInstanceAs (Decidable (_ ∧ _ ∧ _))

namespace RequestReceived

/-- The request asks for this block size, which is valid. -/
def AsksBlockSize (request : RequestReceived) (size : Nat) : Prop :=
  Numeral request.blockSize size ∧ 8 ≤ size ∧ size ≤ 65464

/-- The request asks for a time-out of this many seconds, which is valid. -/
def AsksTimeOut (request : RequestReceived) (seconds : Nat) : Prop :=
  Numeral request.timeOut seconds ∧ 1 ≤ seconds ∧ seconds ≤ 255

/-- The request asks for the size of the file, which can be obtained. -/
def AsksTransferSize (request : RequestReceived) (environment : Environment)
    (rootPath : Bytes) : Prop :=
  Numeral request.transferSize 0 ∧ ∃ path size,
    environment.readFilePath rootPath request.fileName = some path ∧
      environment.fileSize path = some size

end RequestReceived

/-- An option that is listed with its value when it was asked for validly. -/
def Listed (key : Bytes) (asks : Nat → Prop) (strings : List Bytes) : Prop :=
  (∃ value, asks value ∧ strings = [key, toChars value]) ∨
    (∀ value, ¬ asks value) ∧ strings = []

/-- The packet lists the options of the request, and no others. -/
def Packet.ListsOptions (packet : Bytes) (request : RequestReceived)
    (environment : Environment) (rootPath content : Bytes) : Prop :=
  ∃ blockSize timeOut transferSize,
    Listed BlockSizeDecoder.kBlockSizeOption request.AsksBlockSize
      blockSize ∧
    Listed TimeOutDecoder.kTimeOutOption request.AsksTimeOut timeOut ∧
    Listed TransferSizeDecoder.kTransferSizeOption
      (fun value => request.AsksTransferSize environment rootPath ∧
        value = content.length) transferSize ∧
    packet.drop 2 = terminated (blockSize ++ timeOut ++ transferSize)

/-- The options are announced as the request asks for them, and the transfer
keeps to what was announced. -/
structure OptionsHonoured (request : RequestReceived)
    (environment : Environment) (rootPath content : Bytes)
    (history : List Step) (machine : Machine) : Prop where
  lists : ∀ sent ∈ sentPackets history,
    Packet.opCode sent.1 = .optionAcknowledgment →
      Packet.ListsOptions sent.1 request environment rootPath content
  announces : machine.settled = true →
    ((∃ sent ∈ sentPackets history,
        Packet.opCode sent.1 = .optionAcknowledgment) ↔
      (∃ size, request.AsksBlockSize size) ∨
        (∃ seconds, request.AsksTimeOut seconds) ∨
          request.AsksTransferSize environment rootPath)
  blocks : ∀ size, request.AsksBlockSize size ∨
      (∀ other, ¬ request.AsksBlockSize other) ∧ size = 512 →
    FullBlocks size ((formedPackets history).map Packet.payload)
  sent : ∀ sent ∈ sentPackets history, Packet.opCode sent.1 = .data →
    sent.1 ∈ formedPackets history
  waits : ∀ seconds, request.AsksTimeOut seconds → ∀ step ∈ history,
    ∀ duration, Effect.startTimer duration ∈ Transition.outputs step →
      duration = 1000 * seconds
  total : machine.FinalAck →
    ((formedPackets history).map Packet.payload).flatten.length =
        content.length ∧
      ∀ packet ∈ formedPackets history,
        packet ∈ (sentPackets history).map Prod.fst

section Decoding

variable {value : Bytes} {limit result : Nat}

/-- `std::from_chars` reads a whole string when it is a numeral below the
limit. -/
theorem fromChars_eq_some_nil_iff :
    fromChars limit value = some (result, []) ↔
      Numeral value result ∧ result < limit := by
  simp only [fromChars, Numeral]
  constructor
  · intro read
    split at read
    · simp at read
    · rename_i nonempty
      split at read
      · rename_i below
        simp only [Option.some.injEq, Prod.mk.injEq,
          List.dropWhile_eq_nil_iff] at read
        obtain ⟨rfl, digits⟩ := read
        have whole : value.takeWhile isDigit = value :=
          List.takeWhile_eq_self_iff.mpr digits
        rw [whole] at nonempty below ⊢
        exact ⟨⟨nonempty, digits, rfl⟩, below⟩
      · simp at read
  · rintro ⟨⟨nonempty, digits, rfl⟩, below⟩
    have whole : value.takeWhile isDigit = value :=
      List.takeWhile_eq_self_iff.mpr digits
    have nothing : value.dropWhile isDigit = [] :=
      List.dropWhile_eq_nil_iff.mpr digits
    rw [whole, if_neg nonempty, if_pos below, nothing]

theorem getBlockSize_eq_some_iff {size : Nat} :
    BlockSizeDecoder.getBlockSize value = some size ↔
      Numeral value size ∧ 8 ≤ size ∧ size ≤ 65464 := by
  constructor
  · intro decoded
    have bounds := getBlockSize_bounds decoded
    simp only [BlockSizeDecoder.getBlockSize] at decoded
    split at decoded
    · rename_i read
      split at decoded
      · rw [Option.some.injEq] at decoded
        subst decoded
        exact ⟨(fromChars_eq_some_nil_iff.mp read).1, bounds⟩
      · simp at decoded
    · simp at decoded
  · rintro ⟨numeral, least, most⟩
    have read : fromChars (2 ^ 64) value = some (size, []) :=
      fromChars_eq_some_nil_iff.mpr ⟨numeral, by omega⟩
    have bounds : BlockSizeDecoder.kMinDataBlockCount ≤ size ∧
        size ≤ BlockSizeDecoder.kMaxDataBlockCount := ⟨least, most⟩
    have valid : BlockSizeDecoder.isValidBlockSize size = true := by
      simpa [BlockSizeDecoder.isValidBlockSize] using bounds
    unfold BlockSizeDecoder.getBlockSize
    rw [read]
    exact if_pos valid

theorem getTimeOut_eq_some_iff {duration : Nat} :
    TimeOutDecoder.getTimeOut value = some duration ↔
      ∃ seconds, Numeral value seconds ∧ 1 ≤ seconds ∧ seconds ≤ 255 ∧
        duration = 1000 * seconds := by
  constructor
  · intro decoded
    simp only [TimeOutDecoder.getTimeOut] at decoded
    split at decoded
    · rename_i seconds read
      obtain ⟨numeral, below⟩ := fromChars_eq_some_nil_iff.mp read
      split at decoded
      · simp at decoded
      · rw [Option.some.injEq] at decoded
        exact ⟨seconds, numeral, by omega, by omega, decoded.symm⟩
    · simp at decoded
  · rintro ⟨seconds, numeral, least, most, rfl⟩
    have read : fromChars (2 ^ 8) value = some (seconds, []) :=
      fromChars_eq_some_nil_iff.mpr ⟨numeral, by omega⟩
    have positive : seconds ≠ 0 := by omega
    unfold TimeOutDecoder.getTimeOut
    rw [read]
    exact if_neg positive

theorem getTransferSize_eq_some_iff :
    TransferSizeDecoder.getTransferSize value = some result ↔
      Numeral value result ∧ result < 2 ^ 64 := by
  rw [← fromChars_eq_some_nil_iff]
  simp only [TransferSizeDecoder.getTransferSize]
  constructor
  · intro decoded
    split at decoded
    · rename_i read
      rw [Option.some.injEq] at decoded
      rw [read, decoded]
    · simp at decoded
  · intro read
    rw [read]

end Decoding

/-- What the session agreed on is what the request asks for. -/
structure SessionData.Agrees (data : SessionData) (request : RequestReceived)
    (environment : Environment) (rootPath content : Bytes) : Prop where
  blockSize :
    data.useBlockSizeOption = true ∧
        request.AsksBlockSize data.agreedBlockSize ∨
      data.useBlockSizeOption = false ∧
        (∀ other, ¬ request.AsksBlockSize other) ∧ data.agreedBlockSize = 512
  timeOut :
    data.useTimeOutOption = true ∧
        (∃ seconds, request.AsksTimeOut seconds ∧
          data.timeOut = 1000 * seconds) ∨
      data.useTimeOutOption = false ∧ ∀ other, ¬ request.AsksTimeOut other
  transferSize :
    data.useTransferSizeOption = true ∧
        request.AsksTransferSize environment rootPath ∧
          data.fileSize = some content.length ∨
      data.useTransferSizeOption = false ∧
        ¬ request.AsksTransferSize environment rootPath

/-- The data agree on everything that was negotiated. -/
structure SessionData.SameTerms (data other : SessionData) : Prop where
  blockSize : other.agreedBlockSize = data.agreedBlockSize
  timeOut : other.timeOut = data.timeOut
  fileSize : other.fileSize = data.fileSize
  options : other.toOptions = data.toOptions

section Agreeing

variable {data other : SessionData} {environment : Environment}
  {request : RequestReceived} {path rootPath content : Bytes}

theorem setBlockSize_agrees (request : RequestReceived) (data : SessionData)
    (unused : data.useBlockSizeOption = false)
    (default : data.agreedBlockSize = 512) :
    (setBlockSize request data).useBlockSizeOption = true ∧
        request.AsksBlockSize (setBlockSize request data).agreedBlockSize ∨
      (setBlockSize request data).useBlockSizeOption = false ∧
        (∀ other, ¬ request.AsksBlockSize other) ∧
          (setBlockSize request data).agreedBlockSize = 512 := by
  unfold setBlockSize
  cases decoded : BlockSizeDecoder.getBlockSize request.blockSize with
  | some size => exact .inl ⟨rfl, getBlockSize_eq_some_iff.mp decoded⟩
  | none =>
      right
      refine ⟨unused, fun other asks => ?_, default⟩
      rw [getBlockSize_eq_some_iff.mpr asks] at decoded
      simp at decoded

theorem setTimeOut_agrees (request : RequestReceived) (data : SessionData)
    (unused : data.useTimeOutOption = false) :
    (setTimeOut request data).useTimeOutOption = true ∧
        (∃ seconds, request.AsksTimeOut seconds ∧
          (setTimeOut request data).timeOut = 1000 * seconds) ∨
      (setTimeOut request data).useTimeOutOption = false ∧
        ∀ other, ¬ request.AsksTimeOut other := by
  unfold setTimeOut
  cases decoded : TimeOutDecoder.getTimeOut request.timeOut with
  | some duration =>
      obtain ⟨seconds, numeral, least, most, rfl⟩ :=
        getTimeOut_eq_some_iff.mp decoded
      exact .inl ⟨rfl, seconds, ⟨numeral, least, most⟩, rfl⟩
  | none =>
      right
      refine ⟨unused, ?_⟩
      intro other asks
      have decodes := getTimeOut_eq_some_iff.mpr
        ⟨other, asks.1, asks.2.1, asks.2.2, rfl⟩
      rw [decodes] at decoded
      simp at decoded

/-- The size of the file is announced when it was asked for with zero and can
be obtained. -/
theorem setTransferSize_agrees (unused : data.useTransferSizeOption = false)
    (found : environment.readFilePath rootPath request.fileName = some path)
    (sized : ∀ size, environment.fileSize path = some size →
      size.toNat = content.length) :
    (setTransferSize environment request path data).useTransferSizeOption =
          true ∧
        request.AsksTransferSize environment rootPath ∧
          (setTransferSize environment request path data).fileSize =
            some content.length ∨
      (setTransferSize environment request path data).useTransferSizeOption =
          false ∧
        ¬ request.AsksTransferSize environment rootPath := by
  have asksZero (asks : request.AsksTransferSize environment rootPath) :
      TransferSizeDecoder.getTransferSize request.transferSize = some 0 ∧
        ∃ size, environment.fileSize path = some size := by
    obtain ⟨numeral, other, size, same, obtained⟩ := asks
    obtain rfl : path = other := Option.some.inj (found.symm.trans same)
    exact ⟨getTransferSize_eq_some_iff.mpr ⟨numeral, by omega⟩, size,
      obtained⟩
  unfold setTransferSize getFileSize
  cases decoded : TransferSizeDecoder.getTransferSize request.transferSize with
  | none =>
      right
      refine ⟨unused, ?_⟩
      intro asks
      rw [(asksZero asks).1] at decoded
      simp at decoded
  | some requested =>
      cases obtained : environment.fileSize path with
      | none =>
          right
          refine ⟨unused, ?_⟩
          intro asks
          obtain ⟨_, size, other⟩ := asksZero asks
          rw [other] at obtained
          simp at obtained
      | some size =>
          have numeral := (getTransferSize_eq_some_iff.mp decoded).1
          by_cases zero : requested = 0
          · subst zero
            left
            refine ⟨rfl, ⟨numeral, path, size, found, obtained⟩, ?_⟩
            exact congrArg some (sized size obtained)
          · right
            refine ⟨by simpa using zero, fun asks => zero ?_⟩
            have both := (asksZero asks).1
            rw [decoded] at both
            exact Option.some.inj both

theorem openReadFile_granted
    (granted : (openReadFile environment request data).1.hasError = false) :
    ∃ path, environment.readFilePath data.rootPath request.fileName =
        some path ∧
      openReadFile environment request data =
        openFileStream environment path true false
          (setTransferSize environment request path data) := by
  unfold openReadFile at granted ⊢
  cases mode : getMode request.mode with
  | none => simp [mode, SessionData.hasError] at granted
  | some _ =>
      cases found : environment.readFilePath data.rootPath
          request.fileName with
      | none => simp [mode, found, SessionData.hasError] at granted
      | some path => exact ⟨path, rfl, rfl⟩

/-- A granted read request agrees on what it asks for. -/
theorem initServeReadRequest_agrees
    (options : data.toOptions = {}) (default : data.agreedBlockSize = 512)
    (granted : (initServeReadRequest environment request
      data).1.hasError = false)
    (sized : ∀ path size,
      environment.readFilePath data.rootPath request.fileName = some path →
        environment.fileSize path = some size →
          size.toNat = content.length) :
    (initServeReadRequest environment request data).1.Agrees request
      environment data.rootPath content := by
  have root : (openDataSocket environment data).rootPath = data.rootPath :=
    rfl
  have unused : (openDataSocket environment data).toOptions = {} := options
  have size : (openDataSocket environment data).agreedBlockSize = 512 :=
    default
  rw [initServeReadRequest] at granted ⊢
  generalize openDataSocket environment data = socket at *
  have opened : (openReadFile environment request socket).1.hasError =
      false := by
    obtain ⟨_, _, timed⟩ := setTimeOut_frame
      (openReadFile environment request socket).1 request
    obtain ⟨_, _, blocked⟩ := setBlockSize_frame
      (setTimeOut request (openReadFile environment request socket).1) request
    have granted : (setBlockSize request (setTimeOut request
        (openReadFile environment request socket).1)).hasError = false :=
      granted
    rw [blocked, timed] at granted
    exact granted
  obtain ⟨path, found, opens⟩ := openReadFile_granted opened
  rw [root] at found
  have transferSize := setTransferSize_agrees
    (show socket.useTransferSizeOption = false by rw [unused]) found
    (sized path · found)
  obtain ⟨_, _, asked⟩ :=
    setTransferSize_frame environment socket request path
  simp only [opens]
  generalize setTransferSize environment request path socket = middle at *
  have timeOut := setTimeOut_agrees request
    (openFileStream environment path true false middle).1
    (by simp [openFileStream, asked, unused])
  obtain ⟨_, _, timed⟩ := setTimeOut_frame
    (openFileStream environment path true false middle).1 request
  have blockSize := setBlockSize_agrees request
    (setTimeOut request (openFileStream environment path true false middle).1)
    (by rw [timed]; simp [openFileStream, asked, unused])
    (by rw [timed]; simp [openFileStream, asked, size])
  obtain ⟨_, _, blocked⟩ := setBlockSize_frame
    (setTimeOut request (openFileStream environment path true false middle).1)
    request
  refine ⟨blockSize, ?_, ?_⟩
  · rw [blocked]
    exact timeOut
  · rw [blocked, timed]
    exact transferSize

theorem listed_optionStrings (used : Bool) (key : Bytes) (value : Nat)
    {asks : Nat → Prop}
    (agrees : used = true ∧ asks value ∨
      used = false ∧ ∀ other, ¬ asks other) :
    Listed key asks (optionStrings used key value) := by
  rcases agrees with ⟨rfl, asked⟩ | ⟨rfl, unasked⟩
  · exact .inl ⟨value, asked, rfl⟩
  · exact .inr ⟨unasked, rfl⟩

theorem SessionData.Agrees.listsOptions
    (agrees : data.Agrees request environment rootPath content) :
    Packet.ListsOptions (wordBytes OpCode.optionAcknowledgment.value ++
      oackOptions data) request environment rootPath content := by
  obtain ⟨blockSize, timeOut, transferSize⟩ := agrees
  refine ⟨_, _, _,
    listed_optionStrings data.useBlockSizeOption
      BlockSizeDecoder.kBlockSizeOption data.agreedBlockSize ?_,
    listed_optionStrings data.useTimeOutOption
      TimeOutDecoder.kTimeOutOption (data.timeOut / 1000) ?_,
    listed_optionStrings data.useTransferSizeOption
      TransferSizeDecoder.kTransferSizeOption (data.fileSize.getD 0) ?_, ?_⟩
  · rcases blockSize with asked | ⟨unused, unasked, _⟩
    · exact .inl asked
    · exact .inr ⟨unused, unasked⟩
  · rcases timeOut with ⟨used, seconds, asked, duration⟩ | unasked
    · have value : data.timeOut / 1000 = seconds := by omega
      rw [value]
      exact .inl ⟨used, asked⟩
    · exact .inr unasked
  · rcases transferSize with ⟨used, asked, size⟩ | ⟨unused, unasked⟩
    · exact .inl ⟨used, asked, by rw [size]; rfl⟩
    · exact .inr ⟨unused, fun _ asked => unasked asked.1⟩
  · rw [oackOptions_eq_terminated]
    rfl

theorem SessionData.Agrees.hasOptions_iff
    (agrees : data.Agrees request environment rootPath content) :
    data.hasOptions = true ↔
      (∃ size, request.AsksBlockSize size) ∨
        (∃ seconds, request.AsksTimeOut seconds) ∨
          request.AsksTransferSize environment rootPath := by
  obtain ⟨blockSize, timeOut, transferSize⟩ := agrees
  have first : data.useBlockSizeOption = true ↔
      ∃ size, request.AsksBlockSize size := by
    rcases blockSize with ⟨used, asked⟩ | ⟨unused, unasked, _⟩
    · exact iff_of_true used ⟨_, asked⟩
    · exact iff_of_false (by simp [unused]) (not_exists.mpr unasked)
  have second : data.useTimeOutOption = true ↔
      ∃ seconds, request.AsksTimeOut seconds := by
    rcases timeOut with ⟨used, seconds, asked, _⟩ | ⟨unused, unasked⟩
    · exact iff_of_true used ⟨_, asked⟩
    · exact iff_of_false (by simp [unused]) (not_exists.mpr unasked)
  have third : data.useTransferSizeOption = true ↔
      request.AsksTransferSize environment rootPath := by
    rcases transferSize with ⟨used, asked, _⟩ | ⟨unused, unasked⟩
    · exact iff_of_true used asked
    · exact iff_of_false (by simp [unused]) unasked
  rw [← first, ← second, ← third]
  simp [SessionData.hasOptions, or_assoc]

theorem SessionData.Agrees.agreedBlockSize_eq {size : Nat}
    (agrees : data.Agrees request environment rootPath content)
    (asks : request.AsksBlockSize size ∨
      (∀ other, ¬ request.AsksBlockSize other) ∧ size = 512) :
    data.agreedBlockSize = size := by
  rcases agrees.blockSize with ⟨_, asked⟩ | ⟨_, unasked, default⟩
  · rcases asks with same | ⟨none, _⟩
    · exact asked.1.2.2.symm.trans same.1.2.2
    · exact absurd asked (none _)
  · rcases asks with asked | ⟨_, rfl⟩
    · exact absurd asked (unasked _)
    · exact default

theorem SessionData.Agrees.timeOut_eq {seconds : Nat}
    (agrees : data.Agrees request environment rootPath content)
    (asks : request.AsksTimeOut seconds) : data.timeOut = 1000 * seconds := by
  rcases agrees.timeOut with ⟨_, other, asked, duration⟩ | ⟨_, unasked⟩
  · have same : other = seconds := asked.1.2.2.symm.trans asks.1.2.2
    rw [duration, same]
  · exact absurd asks (unasked seconds)

end Agreeing

/-- The OACK that announces what was agreed on. -/
def SessionData.oackPacket (data : SessionData) : Bytes :=
  wordBytes OpCode.optionAcknowledgment.value ++ oackOptions data

/-- The states in which an OACK or a DATA packet is outgoing. -/
def State.sendsBlocks : State → Bool
  | dataRead | sendingData | waitingForAck => true
  | _ => false

/-- What holds in the states of a download that was granted on the given
terms. -/
structure SessionData.Granted (terms data : SessionData) (state : State) :
    Prop where
  same : terms.SameTerms data
  noError : state ≠ .sendingError → data.hasError = false
  outgoing : state.sendsBlocks = true →
    Packet.opCode data.outgoing = .optionAcknowledgment →
      data.outgoing = terms.oackPacket ∧ terms.hasOptions = true

/-- The invariant of a download that was granted on the given terms. -/
structure Negotiated (terms : SessionData) (content : Bytes)
    (history : List Step) (machine : Machine) : Prop where
  granted : terms.Granted machine.data machine.state
  full : FullBlocks terms.agreedBlockSize
    (blocks terms.agreedBlockSize content machine.data.lastSentBlock)
  sent : ∀ sent ∈ sentPackets history,
    Packet.opCode sent.1 = .optionAcknowledgment →
      sent.1 = terms.oackPacket ∧ terms.hasOptions = true
  announced : terms.hasOptions = true →
    machine.state ≠ .readRequestReceived →
      (∃ sent ∈ sentPackets history,
        Packet.opCode sent.1 = .optionAcknowledgment) ∨
      machine.state = .dataRead ∧
        Packet.opCode machine.data.outgoing = .optionAcknowledgment
  waits : ∀ step ∈ history, ∀ duration,
    Effect.startTimer duration ∈ Transition.outputs step →
      duration = terms.timeOut

section Terms

variable {data other : SessionData} {source target : State}
  {event : Option EventKind} {action : Action} {environment : Environment}
  {happens : Option Event}

theorem run_sameTerms (environment : Environment) (happens : Option Event)
    (data : SessionData) (ongoing : action ≠ .reset)
    (serving : action ≠ .initServeReadRequest ∧
      action ≠ .initServeWriteRequest) :
    data.SameTerms (action.run environment happens data).1 := by
  have same := run_keepsTransfer environment happens data ongoing serving.1
    serving.2
  exact ⟨same.blockSize, same.timeOut, same.fileSize, same.options⟩

theorem SessionData.SameTerms.trans {terms : SessionData}
    (first : terms.SameTerms data) (second : data.SameTerms other) :
    terms.SameTerms other :=
  ⟨second.blockSize.trans first.blockSize,
    second.timeOut.trans first.timeOut, second.fileSize.trans first.fileSize,
    second.options.trans first.options⟩

theorem SessionData.SameTerms.start {terms : SessionData}
    (same : terms.SameTerms data) (completion : Completion) :
    terms.SameTerms (completion.start data).1 := by
  obtain ⟨blockSize, timeOut, fileSize, options⟩ := same
  cases completion <;> exact ⟨blockSize, timeOut, fileSize, options⟩

theorem SessionData.SameTerms.oackPacket (same : data.SameTerms other) :
    other.oackPacket = data.oackPacket := by
  obtain ⟨blockSize, timeOut, fileSize, options⟩ := same
  unfold SessionData.oackPacket oackOptions
  rw [blockSize, timeOut, fileSize, options]

theorem SessionData.SameTerms.hasOptions (same : data.SameTerms other) :
    other.hasOptions = data.hasOptions := by
  unfold SessionData.hasOptions
  rw [same.options]

/-- A wait starts on entry to a waiting state only, and lasts the agreed
time-out. -/
theorem fired_waits {exitEffects : List Effect} {acted entered : Outcome}
    (exits : source.exit data = some exitEffects)
    (acts : acted = action.run environment happens data)
    (enters : entered = target.entry acted.1) {duration : Nat}
    (starts : Effect.startTimer duration ∈
      exitEffects ++ acted.2 ++ entered.2) :
    duration = acted.1.timeOut := by
  have found : duration ∈
      (exitEffects ++ acted.2 ++ entered.2).filterMap Effect.wait :=
    List.mem_filterMap.mpr ⟨_, starts, rfl⟩
  have silentExit : exitEffects.filterMap Effect.wait = [] := by
    rcases exit_effects exits with rfl | rfl <;> rfl
  have silentAction : acted.2.filterMap Effect.wait = [] := by
    rw [acts]
    exact run_filterMap (fun _ _ => rfl) (fun _ => rfl) rfl rfl rfl
  rw [List.filterMap_append, List.filterMap_append, silentExit, silentAction,
    enters] at found
  cases target <;> simp_all [State.entry, enterAccepting, enterSending,
    enterReceive, Effect.wait]

theorem formDataPacket_clean (sound : data.fileStream.bad = false)
    (clean : environment.readError = none) :
    (formDataPacket environment data).hasError = data.hasError ∧
      Packet.opCode (formDataPacket environment data).outgoing = .data := by
  have delivered : (data.streamAfterRead environment).bad = false := by
    rw [bad_streamAfterRead sound, clean]
    simp
  rw [outgoing_formDataPacket delivered]
  refine ⟨?_, Packet.opCode_dataPacket _ _⟩
  rw [formDataPacket_of_not_bad delivered]
  rfl

/-- The next block keeps the terms and is sent as a DATA packet. -/
theorem SessionData.Granted.form {terms : SessionData}
    (granted : terms.Granted data source) (calm : source ≠ .sendingError)
    (sound : data.fileStream.bad = false)
    (clean : environment.readError = none) :
    terms.Granted (formDataPacket environment data) .dataRead := by
  obtain ⟨noError, opcode⟩ := formDataPacket_clean sound clean
  have same : data.SameTerms (formDataPacket environment data) :=
    run_sameTerms environment none data
      (by simp : Action.formDataPacket ≠ .reset) (by simp)
  refine ⟨granted.same.trans same, fun _ => ?_, fun _ announces => ?_⟩
  · rw [noError]
    exact granted.noError calm
  · rw [opcode] at announces
    exact absurd announces (by decide)

theorem SessionData.Granted.fire {terms : SessionData} {size : Nat}
    {content : Bytes} (granted : terms.Granted data source)
    (role : DownloadRole size content data source)
    (sound : data.fileStream.bad = false)
    (firing : Firing data source event action target)
    (ongoing : action ≠ .reset) (environment : Environment)
    (happens : Option Event)
    (clean : action = .formDataPacket → environment.readError = none) :
    terms.Granted (action.run environment happens data).1 target := by
  obtain ⟨same, noError, outgoing⟩ := id granted
  cases firing with
  | firstBlock _ plain => exact granted.form (by simp) sound (clean rfl)
  | nextBlock agreed received current more =>
      exact granted.form (by simp) sound (clean rfl)
  | announceOptions options =>
      refine ⟨same.trans ⟨rfl, rfl, rfl, rfl⟩, fun _ => noError (by simp),
        fun _ _ => ⟨?_, ?_⟩⟩
      · rw [← same.oackPacket]
        exact outgoing_formOackPacket
      · rw [← same.hasOptions]
        exact options
  | refuseRead error => simp [noError] at error
  | readFailed error => simp [noError] at error
  | blockRead _ =>
      exact ⟨same.trans ⟨rfl, rfl, rfl, rfl⟩, fun _ => noError (by simp),
        fun _ => outgoing rfl⟩
  | dataSent =>
      exact ⟨same, fun _ => noError (by simp), fun _ => outgoing rfl⟩
  | resendData retry =>
      exact ⟨same.trans ⟨rfl, rfl, rfl, rfl⟩, fun _ => noError (by simp),
        fun _ => outgoing rfl⟩
  | oldAck ignored => exact granted
  | notAck agreed other =>
      exact ⟨same.trans ⟨rfl, rfl, rfl, rfl⟩, by simp,
        by simp [State.sendsBlocks]⟩
  | finish final => exact absurd rfl ongoing
  | giveUpRead exhausted => exact absurd rfl ongoing
  | errorSent => exact absurd rfl ongoing
  | _ => exact role.elim

theorem SessionData.Granted.start {terms : SessionData} {state : State}
    (granted : terms.Granted data state) (completion : Completion) :
    terms.Granted (completion.start data).1 state := by
  refine ⟨granted.same.start completion, fun calm => ?_, fun sends => ?_⟩
  · have same : (completion.start data).1.hasError = data.hasError := by
      cases completion <;> rfl
    rw [same]
    exact granted.noError calm
  · rw [start_outgoing]
    exact granted.outgoing sends

theorem SessionData.Granted.of_sends {terms : SessionData} {state : State}
    {size : Nat} {content : Bytes} (granted : terms.Granted data state)
    (role : DownloadRole size content data state)
    (sends : state.operation = some .send)
    (opcode : Packet.opCode data.outgoing = .optionAcknowledgment) :
    data.outgoing = terms.oackPacket ∧ terms.hasOptions = true := by
  cases state with
  | sendingData => exact granted.outgoing rfl opcode
  | sendingError =>
      have error : Packet.opCode data.outgoing = .error := role
      rw [opcode] at error
      exact absurd error (by decide)
  | sendingAck => exact role.elim
  | _ => simp [State.operation] at sends

/-- From `ReadRequestReceived` options are announced, and the OACK is sent
next. -/
theorem SessionData.Granted.announces {terms : SessionData} {size : Nat}
    {content : Bytes} (granted : terms.Granted data source)
    (role : DownloadRole size content data source)
    (firing : Firing data source event action target)
    (options : terms.hasOptions = true) (environment : Environment)
    (happens : Option Event)
    (unsent : source = .readRequestReceived ∨ source = .dataRead ∧
      Packet.opCode data.outgoing = .optionAcknowledgment) :
    target = .dataRead ∧ Packet.opCode
        (action.run environment happens data).1.outgoing =
          .optionAcknowledgment ∨
      target = .sendingData ∧ Packet.opCode
        (action.run environment happens data).1.outgoing =
          .optionAcknowledgment := by
  rcases unsent with rfl | ⟨rfl, opcode⟩
  · cases firing with
    | firstBlock _ plain =>
        rw [granted.same.hasOptions, options] at plain
        simp at plain
    | announceOptions _ => exact .inl ⟨rfl, opCode_formOackPacket⟩
    | refuseRead error => simp [granted.noError] at error
  · cases firing with
    | blockRead _ => exact .inr ⟨rfl, opcode⟩
    | readFailed error => simp [granted.noError] at error

end Terms

section Steps

variable {config : Config} {terms : SessionData} {content : Bytes}
  {history : List Step} {machine next : Machine} {input : Input}
  {effects : List Effect} {size : Nat}

theorem FireCases.waits {row : Row} {environment : Environment}
    {event : Option Event} {exitEffects : List Effect} {duration : Nat}
    (cases : FireCases machine row environment event exitEffects effects
      next) (starts : Effect.startTimer duration ∈ effects) :
    duration =
      (row.action.run environment event machine.data).1.timeOut := by
  rw [cases.effects_eq] at starts
  exact fired_waits cases.exits rfl rfl starts

theorem DownloadRole.busy {data : SessionData} {state : State}
    (role : DownloadRole size content data state) : state.busy = true := by
  cases state <;> first | rfl | exact role.elim

theorem SessionData.Positioned.fullBlocks {data : SessionData}
    (positioned : data.Positioned size content)
    (more : data.hasMoreToSend = true)
    (full : FullBlocks size (blocks size content data.lastSentBlock)) :
    FullBlocks size (blocks size content (data.lastSentBlock + 1)) := by
  rw [blocks_succ]
  refine full.concat (fun other last => ?_) ?_
  · match count : data.lastSentBlock with
    | 0 => simp [count, blocks] at last
    | index + 1 =>
        rw [count, blocks_succ, List.getLast?_concat,
          Option.some.injEq] at last
        rw [← last, ← positioned.last index count]
        simpa [SessionData.hasMoreToSend, count, positioned.blockSize]
          using more
  · rw [block_length]
    exact Nat.min_le_left _ _

theorem Negotiated.complete
    (negotiated : Negotiated terms content history machine)
    {completion : Completion} {outputs : List Effect}
    (silent : outputs.filterMap Effect.packet = [])
    (waitless : outputs.filterMap Effect.wait = [])
    (state : next.state = machine.state)
    (data : next.data = (completion.start machine.data).1) :
    Negotiated terms content
      (history ++ [⟨machine, .complete completion, outputs, next⟩]) next := by
  obtain ⟨granted, full, sent, announced, waits⟩ := negotiated
  have same : sentPackets
      (history ++ [⟨machine, .complete completion, outputs, next⟩]) =
        sentPackets history := by
    rw [sentPackets_concat, silent, List.append_nil]
  refine ⟨?_, ?_, ?_, ?_, ?_⟩
  · rw [state, data]
    exact granted.start completion
  · have count : next.data.lastSentBlock = machine.data.lastSentBlock := by
      rw [data]
      cases completion <;> rfl
    rw [count]
    exact full
  · rw [same]
    exact sent
  · rw [same, state, data, start_outgoing]
    exact announced
  · intro step member duration starts
    rcases List.mem_append.mp member with earlier | here
    · exact waits step earlier duration starts
    · rw [List.mem_singleton.mp here] at starts
      have found : duration ∈ outputs.filterMap Effect.wait :=
        List.mem_filterMap.mpr ⟨_, starts, rfl⟩
      rw [waitless] at found
      simp at found

/-- With options an OACK is outgoing or was sent once a row leads on. -/
theorem Negotiated.announced_fire
    (negotiated : Negotiated terms content history machine)
    (role : DownloadRole terms.agreedBlockSize content machine.data
      machine.state)
    {row : Row} {environment : Environment} {event : Option Event}
    {exitEffects : List Effect}
    (cases : FireCases machine row environment event exitEffects effects
      next)
    (data_eq : next.data =
      (row.action.run environment event machine.data).1)
    (options : terms.hasOptions = true) :
    (∃ sent ∈ sentPackets
        (history ++ [⟨machine, .fire row environment, effects, next⟩]),
      Packet.opCode sent.1 = .optionAcknowledgment) ∨
      next.state = .dataRead ∧
        Packet.opCode next.data.outgoing = .optionAcknowledgment := by
  have packets := cases.packets
  have announces := negotiated.granted.announces role cases.firing options
    environment event
  rw [← data_eq, ← cases.state_eq] at announces packets
  rw [sentPackets_concat]
  by_cases unsent : machine.state = .readRequestReceived ∨
    machine.state = .dataRead ∧
      Packet.opCode machine.data.outgoing = .optionAcknowledgment
  · rcases announces unsent with formed | ⟨sending, opcode⟩
    · exact .inr formed
    · have sends : effects.filterMap Effect.packet =
          [(next.data.outgoing, next.data.agreedRemoteEndpoint)] := by
        rw [packets, sending]
        rfl
      left
      refine ⟨(next.data.outgoing, next.data.agreedRemoteEndpoint),
        List.mem_append_right _ ?_, opcode⟩
      simp [sends]
  · obtain ⟨started, unread⟩ := not_or.mp unsent
    rcases negotiated.announced options started with
      ⟨packet, member, opcode⟩ | formed
    · exact .inl ⟨packet, List.mem_append_left _ member, opcode⟩
    · exact absurd formed unread

theorem Negotiated.fire
    (negotiated : Negotiated terms content history machine)
    (role : DownloadRole terms.agreedBlockSize content machine.data
      machine.state)
    (positioned : machine.data.Positioned terms.agreedBlockSize content)
    {row : Row} {environment : Environment} {event : Option Event}
    {exitEffects : List Effect}
    (cases : FireCases machine row environment event exitEffects effects
      next)
    (ongoing : row.action ≠ .reset)
    (data_eq : next.data =
      (row.action.run environment event machine.data).1)
    (reads : row.action = .formDataPacket →
      environment.content = content ∧ environment.readError = none) :
    Negotiated terms content
      (history ++ [⟨machine, .fire row environment, effects, next⟩])
      next := by
  have advance :=
    role.fire environment event positioned cases.firing ongoing reads
  have after := negotiated.granted.fire role positioned.sound cases.firing
    ongoing environment event fun forms => (reads forms).2
  have packets := cases.packets
  have landing := cases.state_eq
  have waited (duration : Nat)
      (starts : Effect.startTimer duration ∈ effects) :
      duration = terms.timeOut :=
    (cases.waits starts).trans after.same.timeOut
  rw [← data_eq, ← landing] at advance after packets
  refine ⟨after, ?_, ?_, ?_, ?_⟩
  · rw [advance.count]
    split
    · rename_i forms
      have firing := cases.firing
      rw [forms] at firing
      exact positioned.fullBlocks (role.more firing) negotiated.full
    · exact negotiated.full
  · intro packet member opcode
    rw [sentPackets_concat] at member
    rcases List.mem_append.mp member with earlier | here
    · exact negotiated.sent packet earlier opcode
    · simp only [packets] at here
      split at here
      · rename_i sends
        rw [List.mem_singleton.mp here] at opcode ⊢
        exact after.of_sends advance.role sends opcode
      · simp at here
  · intro options _
    exact negotiated.announced_fire role cases data_eq options
  · intro step member duration starts
    rcases List.mem_append.mp member with earlier | here
    · exact negotiated.waits step earlier duration starts
    · rw [List.mem_singleton.mp here] at starts
      exact waited duration starts

theorem Negotiated.step
    (negotiated : Negotiated terms content history machine)
    (downloading : Downloading config terms.agreedBlockSize content history
      machine)
    (stepped : machine.step input = some (next, effects))
    (ongoing : ¬ Step.Fires ⟨machine, input, effects, next⟩ .reset)
    (reads : Step.readsFrom content ⟨machine, input, effects, next⟩ = true) :
    Negotiated terms content
      (history ++ [⟨machine, input, effects, next⟩]) next := by
  obtain ⟨wellFormed, role, positioned, _, _, _⟩ := downloading
  have cases := wellFormed.busyCases role.busy stepped ongoing
  cases cases with
  | @complete completion idle uses drives =>
      exact negotiated.complete (by cases completion <;> rfl)
        (by cases completion <;> rfl) rfl rfl
  | fire cases continues busy data_eq =>
      apply negotiated.fire role positioned cases continues data_eq
      intro forms
      simpa [Step.readsFrom, forms] using reads

end Steps

section Transfers

variable {config : Config} {past rest : List Step} {accept : Step}
  {machine : Machine} {content : Bytes}

theorem Serving.negotiated
    (serving : Serving config .initServeReadRequest past accept rest machine)
    (granted : accept.after.data.hasError = false)
    (opened : accept.after.data.fileStream.isOpen = true)
    (reads : ∀ step ∈ rest, Step.readsFrom content step = true) :
    Downloading config accept.after.data.agreedBlockSize content rest
        machine ∧
      Negotiated accept.after.data content rest machine := by
  refine serving.split.2.2.history_invariant
    (fun step => ¬ Step.Fires step .reset ∧
      Step.readsFrom content step = true)
    (fun step member => ⟨serving.ongoing step member, reads step member⟩)
    (fun history machine =>
      Downloading config accept.after.data.agreedBlockSize content history
          machine ∧
        Negotiated accept.after.data content history machine)
    ⟨serving.downloading_start opened content, ?_⟩
    fun _ _ ⟨downloading, negotiated⟩ admitted ⟨ongoing, reads⟩ =>
      ⟨(downloading.step admitted ongoing reads).1,
        negotiated.step downloading admitted ongoing reads⟩
  have role := (serving.downloading_start opened content).role
  obtain ⟨_, _, _, next_eq⟩ := serving.start (.inl rfl)
  have state : accept.after.state = .readRequestReceived := by
    rw [next_eq]
    rfl
  rw [state] at role
  have unsent : accept.after.data.lastSentBlock = 0 := role
  refine ⟨⟨⟨rfl, rfl, rfl, rfl⟩, fun _ => granted, ?_⟩, ?_, ?_, ?_, ?_⟩
  · simp [state, State.sendsBlocks]
  · rw [unsent]
    exact fullBlocks_nil
  · simp [sentPackets]
  · exact fun _ started => absurd state started
  · simp

theorem Serving.agrees {row : Row} {environment : Environment}
    {request : RequestReceived}
    (serving : Serving config .initServeReadRequest past accept rest machine)
    (requested : accept.before.tasks = [.process (.requestReceived request)])
    (fired : accept.input = .fire row environment)
    (granted : accept.after.data.hasError = false)
    (sized : ∀ path size,
      environment.readFilePath config.rootPath request.fileName =
        some path → environment.fileSize path = some size →
          size.toNat = content.length) :
    accept.after.data.Agrees request environment config.rootPath content := by
  obtain ⟨other, answers, asked, exitEffects, taken, acts, accepts, target,
    cases⟩ := serving.accepted (.inl rfl)
  have running := cases.running
  rw [requested] at running
  obtain rfl : request = asked := by simpa using running
  obtain ⟨rfl, rfl⟩ : row = other ∧ environment = answers := by
    rw [fired] at taken
    simpa using taken
  have entered := cases.data_eq (by simp [target])
  rw [acts, Action.run] at entered
  have pristine := serving.wellFormed_before.pristine accepts
  rw [SessionData.Pristine] at pristine
  have options : accept.before.data.toOptions = {} := by
    rw [pristine]
    rfl
  have default : accept.before.data.agreedBlockSize = 512 := by
    rw [pristine]
    rfl
  have root : accept.before.data.rootPath = config.rootPath := by
    rw [pristine]
    rfl
  rw [entered] at granted ⊢
  rw [← root] at sized ⊢
  exact initServeReadRequest_agrees options default granted sized

theorem Serving.formed_of_sent
    (serving : Serving config .initServeReadRequest past accept rest machine)
    (opened : accept.after.data.fileStream.isOpen = true)
    (reads : ∀ step ∈ rest, Step.readsFrom content step = true)
    {sent : Bytes × Endpoint} (member : sent ∈ sentPackets rest)
    (opcode : Packet.opCode sent.1 = .data) :
    sent.1 ∈ formedPackets rest := by
  rw [sentPackets, List.filterMap_flatMap] at member
  obtain ⟨step, inside, sends⟩ := List.mem_flatMap.mp member
  obtain ⟨before, after, rfl⟩ := List.append_of_mem inside
  obtain ⟨earlier, admitted⟩ := serving.before
  have sofar := earlier.downloading opened
    fun other member => reads other (List.mem_append_left _ member)
  have last := (sofar.step admitted (serving.ongoing step inside)
    (reads step inside)).2 sent sends opcode
  rw [formedPackets, List.filterMap_append]
  exact List.mem_append_left _ (List.mem_of_getLast? last)

end Transfers

/-- A granted read request gets the options it asks for, and the transfer
keeps to them. -/
theorem options_honoured (config : Config) (past : List Step) (accept : Step)
    (rest : List Step) (machine : Machine) (row : Row)
    (environment : Environment) (request : RequestReceived) (content : Bytes)
    (serving : Serving config .initServeReadRequest past accept rest machine)
    (requested : accept.before.tasks = [.process (.requestReceived request)])
    (fired : accept.input = .fire row environment)
    (granted : accept.after.data.hasError = false)
    (opened : accept.after.data.fileStream.isOpen = true)
    (sized : ∀ path size,
      environment.readFilePath config.rootPath request.fileName =
        some path → environment.fileSize path = some size →
          size.toNat = content.length)
    (reads : ∀ step ∈ rest, Step.readsFrom content step = true) :
    OptionsHonoured request environment config.rootPath content rest
      machine := by
  have agrees := serving.agrees requested fired granted sized
  obtain ⟨downloading, negotiated⟩ :=
    serving.negotiated granted opened reads
  have payloads : (formedPackets rest).map Packet.payload =
      blocks accept.after.data.agreedBlockSize content
        machine.data.lastSentBlock := by
    rw [downloading.formed, dataPackets_payload]
  refine ⟨?_, ?_, ?_, ?_, ?_, ?_⟩
  · intro sent member opcode
    rw [(negotiated.sent sent member opcode).1]
    exact agrees.listsOptions
  · intro settled
    rw [← agrees.hasOptions_iff]
    constructor
    · rintro ⟨sent, member, opcode⟩
      exact (negotiated.sent sent member opcode).2
    · intro options
      have waits := settled_iff.mp settled
      have started : machine.state ≠ .readRequestReceived := by
        intro here
        simp [here, State.operation] at waits
      rcases negotiated.announced options started with found | ⟨reading, _⟩
      · exact found
      · simp [reading, State.operation] at waits
  · intro size asks
    rw [payloads, ← agrees.agreedBlockSize_eq asks]
    exact negotiated.full
  · intro sent member opcode
    exact serving.formed_of_sent opened reads member opcode
  · intro seconds asks step member duration starts
    rw [negotiated.waits step member duration starts]
    exact agrees.timeOut_eq asks
  · intro final
    have delivered := downloading.delivered final
    exact ⟨by rw [delivered.whole], delivered.sent⟩

section Examples

/-- A request of the client with all three options. -/
private def allOptions : Datagram where
  bytes := (requestOf .readRequest).bytes ++
    (BlockSizeDecoder.kBlockSizeOption ++ [0]) ++ (asciiBytes ['9'] ++ [0]) ++
    (TimeOutDecoder.kTimeOutOption ++ [0]) ++ (asciiBytes ['3'] ++ [0]) ++
    (TransferSizeDecoder.kTransferSizeOption ++ [0]) ++
    (asciiBytes ['0'] ++ [0])
  fits := by decide

private def twelveBytes : Bytes :=
  [0, 1, 2, 3, 4, 5, 6, 7, 8, 9, 10, 11]

/-- What the operating system answers about a file of twelve bytes. -/
private def twelveByteFile : Environment where
  fileSize _ := some 12
  content := twelveBytes

/-- The request served by a step, and the answers of the operating system. -/
private def Step.served (step : Step) :
    Option (Row × Environment × RequestReceived) :=
  match step.input, step.before.tasks with
  | .fire row environment, [.process (.requestReceived request)] =>
      some (row, environment, request)
  | _, _ => none

private theorem Step.served_eq {step : Step} {row : Row}
    {environment : Environment} {request : RequestReceived}
    (served : step.served = some (row, environment, request)) :
    step.before.tasks = [.process (.requestReceived request)] ∧
      step.input = .fire row environment := by
  simp only [Step.served] at served
  split at served
  · rename_i taken running
    simp only [Option.some.injEq, Prod.mk.injEq] at served
    obtain ⟨rfl, rfl, rfl⟩ := served
    exact ⟨running, taken⟩
  · simp at served

/-- Whether the size of the file served is that of the twelve bytes. -/
private def sizesTwelve (environment : Environment)
    (request : RequestReceived) : Bool :=
  match environment.readFilePath [] request.fileName with
  | some path => environment.fileSize path == some 12
  | none => false

/-- All three options are announced, and twelve bytes are delivered in blocks
of nine bytes. -/
theorem all_options_honoured :
    ∃ past accept rest machine environment request,
      Serving .loopback .initServeReadRequest past accept rest machine ∧
        machine.FinalAck ∧ RequestReceived.AsksBlockSize request 9 ∧
          RequestReceived.AsksTimeOut request 3 ∧
            OptionsHonoured request environment [] twelveBytes rest
              machine := by
  obtain ⟨history, step, run, _, passes⟩ :=
    exists_step_of_converse .loopback
      [(.accepted .client allOptions, twelveByteFile),
        (.sent false, twelveByteFile),
        (.received .client (ackOf 0), twelveByteFile),
        (.sent false, twelveByteFile), (.receiveFailed, twelveByteFile),
        (.sent false, twelveByteFile),
        (.received .client (ackOf 1), twelveByteFile),
        (.sent false, twelveByteFile),
        (.received .client (ackOf 2), twelveByteFile)]
      (fun history step => checkTransfer .initServeReadRequest
        (fun accept rest machine =>
          decide (accept.after.data.hasError = false) &&
            accept.after.data.fileStream.isOpen &&
              rest.all (Step.readsFrom twelveBytes) &&
                decide machine.FinalAck &&
                  accept.served.any fun served =>
                    sizesTwelve served.2.1 served.2.2 &&
                      decide (Numeral served.2.2.blockSize 9) &&
                        decide (Numeral served.2.2.timeOut 3))
        history step.before)
      (by decide +kernel)
  obtain ⟨past, accept, rest, serving, passes⟩ :=
    exists_serving_of_check run passes
  simp only [Bool.and_eq_true, decide_eq_true_eq, List.all_eq_true,
    Option.any_eq_true] at passes
  obtain ⟨⟨⟨⟨granted, opened⟩, reads⟩, final⟩, ⟨row, environment, request⟩,
    served, ⟨sizes, blockSize⟩, timeOut⟩ := passes
  obtain ⟨requested, fired⟩ := Step.served_eq served
  refine ⟨past, accept, rest, step.before, environment, request, serving,
    final, ⟨blockSize, by omega, by omega⟩, ⟨timeOut, by omega, by omega⟩, ?_⟩
  refine options_honoured .loopback past accept rest step.before row
    environment request twelveBytes serving requested fired granted opened ?_
    reads
  intro path size found sized
  have found : environment.readFilePath [] request.fileName = some path :=
    found
  rw [sizesTwelve, found, beq_iff_eq] at sizes
  obtain rfl : size = 12 := Option.some.inj (sized.symm.trans sizes)
  rfl

end Examples

end MsmTftp
