import MsmTftp.DownloadProgress
import MsmTftp.SessionOack

/-!
# A download in which the client goes by the OACK

The client reads the OACK with the option loop of the request parser and takes
the block size it finds there, or that of the protocol without options.  It
need not know what the session agreed to: what it reads is what the session
uses, so that a block that is short to the client is the last one, and the
announced transfer size is that of the file.
-/

namespace MsmTftp

open CellBuffer RequestTokenizer StopAndWait TransferBlocks TransitionSystem

/-- The options of an OACK, read as those of a request. -/
def oackRequest (packet : Bytes) : RequestReceived :=
  parseOptions (ofList 0 packet) packet.length
    (first (ofList 0 packet) ShortHeaderView.size packet.length)
    { opCode := .optionAcknowledgment }

/-- The block size an OACK announces. -/
def oackBlockSize (packet : Bytes) : Nat :=
  (BlockSizeDecoder.getBlockSize (oackRequest packet).blockSize).getD 512

/-- The transfer size an OACK announces. -/
def oackTransferSize (packet : Bytes) : Option Nat :=
  TransferSizeDecoder.getTransferSize (oackRequest packet).transferSize

/-- The block size a client goes by when it may have got these packets. -/
def announcedBlockSize (packets : List Bytes) : Nat :=
  match packets.find? fun packet =>
    Packet.opCode packet == .optionAcknowledgment with
  | some packet => oackBlockSize packet
  | none => 512

/-- What a client knows by the packets it may have got. -/
structure DownloadLink.Informed (request : RequestReceived) (content : Bytes)
    (link : DownloadLink) : Prop where
  prefixed : link.taken <+: cut (announcedBlockSize link.sent) content
  short : ∀ final ∈ link.taken,
    final.length < announcedBlockSize link.sent →
      link.taken.flatten = content
  asked : link.taken ≠ [] → ∀ size, request.AsksBlockSize size →
    announcedBlockSize link.sent = size
  total : ∀ packet ∈ link.sent,
    Packet.opCode packet = .optionAcknowledgment →
      ∀ size, oackTransferSize packet = some size →
        size = content.length ∧
          (link.taken.flatten.length = size ↔ link.taken.flatten = content)

section Reading

variable {data : SessionData}

theorem lastValue_blockSize (data : SessionData) :
    lastValue BlockSizeDecoder.kBlockSizeOption
        (optionPairs (oackStrings data)) =
      if data.useBlockSizeOption then toChars data.agreedBlockSize
      else [] := by
  have same : SameUpToCase BlockSizeDecoder.kBlockSizeOption
      BlockSizeDecoder.kBlockSizeOption := rfl
  have timeOut : ¬ SameUpToCase TimeOutDecoder.kTimeOutOption
      BlockSizeDecoder.kBlockSizeOption := by decide
  have transferSize : ¬ SameUpToCase TransferSizeDecoder.kTransferSizeOption
      BlockSizeDecoder.kBlockSizeOption := by decide
  unfold oackStrings optionStrings
  cases data.useBlockSizeOption <;> cases data.useTimeOutOption <;>
    cases data.useTransferSizeOption <;>
      simp [lastValue, optionPairs, same, timeOut, transferSize]

theorem lastValue_transferSize (data : SessionData) :
    lastValue TransferSizeDecoder.kTransferSizeOption
        (optionPairs (oackStrings data)) =
      if data.useTransferSizeOption then toChars (data.fileSize.getD 0)
      else [] := by
  have blockSize : ¬ SameUpToCase BlockSizeDecoder.kBlockSizeOption
      TransferSizeDecoder.kTransferSizeOption := by decide
  have timeOut : ¬ SameUpToCase TimeOutDecoder.kTimeOutOption
      TransferSizeDecoder.kTransferSizeOption := by decide
  have same : SameUpToCase TransferSizeDecoder.kTransferSizeOption
      TransferSizeDecoder.kTransferSizeOption := rfl
  unfold oackStrings optionStrings
  cases data.useBlockSizeOption <;> cases data.useTimeOutOption <;>
    cases data.useTransferSizeOption <;>
      simp [lastValue, optionPairs, same, timeOut, blockSize]

/-- An OACK is read as the options it was formed from. -/
theorem oackRequest_oackPacket (offers : data.Offers)
    (options : data.hasOptions = true) :
    oackRequest data.oackPacket =
      { opCode := .optionAcknowledgment
        blockSize := lastValue BlockSizeDecoder.kBlockSizeOption
          (optionPairs (oackStrings data))
        timeOut := lastValue TimeOutDecoder.kTimeOutOption
          (optionPairs (oackStrings data))
        transferSize := lastValue TransferSizeDecoder.kTransferSizeOption
          (optionPairs (oackStrings data)) } := by
  have length := offers.inRange.oackOptions_length
  have packet : data.oackPacket =
      requestBytes .optionAcknowledgment (oackStrings data) := by
    rw [SessionData.oackPacket, oackOptions_eq_terminated]
    rfl
  have fits : data.oackPacket.length ≤ kBufferSize := by
    rw [SessionData.oackPacket, List.length_append, wordBytes_length,
      kBufferSize]
    omega
  obtain ⟨segments, _⟩ := segments_of_requestBytes
    ((view_write_zero (fill 0) _).trans packet)
    fun _ member => zero_not_mem_of_oackStrings member
  have count := segments.length_le
  have visits := segments.first
  cases strings : oackStrings data with
  | nil => exact absurd strings (oackStrings_ne_nil options)
  | cons string rest =>
      rw [strings] at visits count
      have enough : rest.length < 2 * data.oackPacket.length := by
        simp only [List.length_cons] at count
        omega
      refine (parseOptions_eq_setOptions visits (by simpa using fits)
        enough).trans ?_
      rw [← strings]
      exact setOptions_eq _ ⟨rfl, rfl, rfl⟩

theorem oackBlockSize_oackPacket (offers : data.Offers)
    (options : data.hasOptions = true)
    (default : data.useBlockSizeOption = false →
      data.agreedBlockSize = 512) :
    oackBlockSize data.oackPacket = data.agreedBlockSize := by
  rw [oackBlockSize, oackRequest_oackPacket offers options,
    lastValue_blockSize]
  cases used : data.useBlockSizeOption with
  | false => exact (default used).symm
  | true =>
      rw [if_pos rfl, getBlockSize_eq_some_iff.mpr
        ⟨numeral_toChars _, offers.blockSize⟩]
      rfl

theorem oackTransferSize_oackPacket (offers : data.Offers)
    (options : data.hasOptions = true) {size : Nat}
    (announced : oackTransferSize data.oackPacket = some size) :
    data.useTransferSizeOption = true ∧ data.fileSize = some size := by
  rw [oackTransferSize, oackRequest_oackPacket offers options,
    lastValue_transferSize] at announced
  cases used : data.useTransferSizeOption with
  | false =>
      rw [used] at announced
      cases announced
  | true =>
      obtain ⟨total, below, found⟩ := offers.transferSize used
      rw [used, if_pos rfl, found, Option.getD_some,
        getTransferSize_eq_some_iff.mpr ⟨numeral_toChars _, below⟩] at announced
      exact ⟨rfl, found.trans announced⟩

end Reading

section Downloads

variable {config : Config} {past : List Step} {accept : Step}
  {content rootPath : Bytes} {history : List DownloadStep}
  {request : RequestReceived} {environment : Environment}
  {terms : SessionData} {steps : List Step} {machine : Machine}

theorem readsFrom_downloadSteps
    (reads : ∀ step ∈ history,
      DownloadMove.readsFrom content (Transition.input step) = true) :
    ∀ step ∈ downloadSteps history, Step.readsFrom content step = true := by
  intro step member
  obtain ⟨move, inside, projected⟩ := List.mem_filterMap.mp member
  obtain ⟨input, translated, rfl⟩ := Option.map_eq_some_iff.mp projected
  have read := reads move inside
  obtain ⟨before, moved, effects, after⟩ := move
  cases moved with
  | session taken =>
      obtain rfl := Option.some.inj translated
      cases taken with
      | fire row environment => exact read
      | _ => rfl
  | take | acknowledge => cases translated

theorem Serving.offers
    (serving : Serving config .initServeReadRequest past accept []
      accept.after) : accept.after.data.Offers := by
  obtain ⟨_, _, _, next_eq⟩ := serving.start (.inl rfl)
  apply serving.run.negotiates
  rw [next_eq]
  rfl

theorem Downloading.oack_sent
    (downloading : Downloading config terms.agreedBlockSize content steps
      machine)
    (negotiated : Negotiated terms content steps machine)
    (options : terms.hasOptions = true)
    (started : 1 ≤ machine.data.lastSentBlock) :
    ∃ sent ∈ sentPackets steps,
      Packet.opCode sent.1 = .optionAcknowledgment := by
  have role := downloading.role
  have left : machine.state ≠ .readRequestReceived := by
    intro here
    rw [here] at role
    have unsent : machine.data.lastSentBlock = 0 := role
    omega
  rcases negotiated.announced options left with found | ⟨reading, opcode⟩
  · exact found
  · rw [reading] at role
    rcases role with ⟨unsent, _⟩ | ⟨index, _, block⟩
    · omega
    · rw [block, Packet.opCode_dataPacket] at opcode
      cases opcode

/-- The OACKs of a download announce what the session goes by. -/
theorem Negotiated.announces
    (negotiated : Negotiated terms content steps machine)
    (offers : terms.Offers)
    (agrees : terms.Agrees request environment rootPath content)
    {packet : Bytes} (sent : packet ∈ (sentPackets steps).map Prod.fst)
    (opcode : Packet.opCode packet = .optionAcknowledgment) :
    oackBlockSize packet = terms.agreedBlockSize ∧
      ∀ size, oackTransferSize packet = some size → size = content.length := by
  obtain ⟨received, member, rfl⟩ := List.mem_map.mp sent
  obtain ⟨same, options⟩ := negotiated.sent received member opcode
  rw [same]
  constructor
  · apply oackBlockSize_oackPacket offers options
    intro unused
    rcases agrees.blockSize with ⟨used, _⟩ | ⟨_, _, default⟩
    · rw [unused] at used
      cases used
    · exact default
  · intro size announced
    obtain ⟨used, found⟩ :=
      oackTransferSize_oackPacket offers options announced
    rcases agrees.transferSize with ⟨_, _, total⟩ | ⟨unused, _⟩
    · exact Option.some.inj (found.symm.trans total)
    · rw [used] at unused
      cases unused

/-- A client that holds a block goes by the block size of the session. -/
theorem Negotiated.announcedBlockSize_eq
    (negotiated : Negotiated terms content steps machine)
    (offers : terms.Offers)
    (agrees : terms.Agrees request environment rootPath content)
    (downloading : Downloading config terms.agreedBlockSize content steps
      machine)
    (started : 1 ≤ machine.data.lastSentBlock) :
    announcedBlockSize ((sentPackets steps).map Prod.fst) =
      terms.agreedBlockSize := by
  unfold announcedBlockSize
  split
  · next packet found =>
    have opcode := List.find?_some found
    exact (negotiated.announces offers agrees
      (List.mem_of_find?_eq_some found) (by simpa using opcode)).1
  · next missing =>
    rcases agrees.blockSize with ⟨used, _⟩ | ⟨_, _, default⟩
    · obtain ⟨sent, member, opcode⟩ := downloading.oack_sent negotiated
        (by simp [SessionData.hasOptions, used]) started
      rw [List.find?_eq_none] at missing
      exact absurd (beq_iff_eq.mpr opcode)
        (missing _ (List.mem_map_of_mem member))
    · exact default.symm

end Downloads

/-- A client that reads the OACK knows by itself when it holds the file. -/
theorem announced_download_agrees (config : Config) (past : List Step)
    (accept : Step) (row : Row) (environment : Environment)
    (request : RequestReceived) (content : Bytes)
    (history : List DownloadStep) (link : DownloadLink)
    (serving : Serving config .initServeReadRequest past accept []
      accept.after)
    (requested : accept.before.tasks = [.process (.requestReceived request)])
    (fired : accept.input = .fire row environment)
    (granted : accept.after.data.hasError = false)
    (opened : accept.after.data.fileStream.isOpen = true)
    (sized : ∀ path size,
      environment.readFilePath config.rootPath request.fileName =
        some path → environment.fileSize path = some size →
          size.toNat = content.length)
    (run : download.Run (.accepted accept.after) history link)
    (reads : ∀ step ∈ history,
      DownloadMove.readsFrom content (Transition.input step) = true) :
    link.Informed request content := by
  have agrees := serving.agrees requested fired granted sized
  obtain ⟨trace, twin, reached, same⟩ := serving.refines opened run reads
  have inStep := same.inStep (sound_of_run reached) serving.agreedBlockSize_pos
  obtain ⟨downloading, negotiated⟩ :=
    (serving.download run).negotiated granted opened
      (readsFrom_downloadSteps reads)
  have announced : link.taken ≠ [] →
      announcedBlockSize link.sent = accept.after.data.agreedBlockSize := by
    intro some
    have held := List.length_pos_iff.mpr some
    rw [sent_eq_of_run run]
    exact negotiated.announcedBlockSize_eq serving.offers agrees downloading
      (Nat.le_trans held inStep.behind)
  refine ⟨?_, ?_, ?_, ?_⟩
  · by_cases some : link.taken = []
    · rw [some]
      exact List.nil_prefix
    · rw [announced some]
      exact inStep.prefixed
  · intro final member short
    rw [announced (List.ne_nil_of_mem member)] at short
    exact inStep.short final member short
  · intro some size asks
    rw [announced some]
    exact agrees.agreedBlockSize_eq (.inl asks)
  · intro packet sent opcode size total
    rw [sent_eq_of_run run] at sent
    obtain rfl :=
      (negotiated.announces serving.offers agrees sent opcode).2 size total
    refine ⟨rfl, fun whole => ?_, fun whole => by rw [whole]⟩
    obtain ⟨others, split⟩ := inStep.prefixed
    have part : link.taken.flatten <+: content :=
      ⟨others.flatten, by
        rw [← List.flatten_append, split,
          cut_flatten serving.agreedBlockSize_pos]⟩
    exact part.eq_of_length whole

section Examples

/-- A read request for blocks of eight bytes and the size of the file. -/
private def sizedOctets : Datagram where
  bytes := octets.bytes ++ (TransferSizeDecoder.kTransferSizeOption ++ [0] ++
    asciiBytes ['0', '\x00'])
  fits := by decide

/-- What the operating system answers about the small file. -/
private def elevenByteFile : Environment where
  fileSize _ := some 11
  content := elevenBytes

/-- The size of a file that the step looks up is that of the content. -/
private def Step.sizes (content : Bytes) (step : Step) : Bool :=
  match step.before.tasks, step.input with
  | [.process (.requestReceived request)], .fire _ environment =>
      decide (Numeral request.blockSize 8) &&
        (environment.readFilePath [] request.fileName).all fun path =>
          (environment.fileSize path).all fun size =>
            size.toNat == content.length
  | _, _ => false

open DownloadMove in
/-- The OACK is repeated, and the second block arrives. -/
private def sizedScript :
    List (DownloadMove × (DownloadLink → Option DownloadMove)) :=
  [(.acknowledge 0, untilReturned), completes (.sent false),
    completes .receiveFailed, completes (.sent false),
    completes (.received .client (ackOf 0)), completes (.sent false),
    alone (.take (Packet.dataPacket 1 [0, 1, 2, 3, 4, 5, 6, 7])),
    alone (.acknowledge 1), completes (.received .client (ackOf 1)),
    completes (.sent false), alone (.take (Packet.dataPacket 2 [8, 9, 10])),
    alone (.acknowledge 2)]

/-- A client that was announced blocks of eight bytes and a file of eleven
bytes. -/
theorem eleven_bytes_announced :
    ∃ past accept request history link,
      Serving .loopback .initServeReadRequest past accept [] accept.after ∧
        download.Run (.accepted accept.after) history link ∧
          RequestReceived.AsksBlockSize request 8 ∧
            link.taken = cut 8 elevenBytes ∧
              link.Informed request elevenBytes := by
  obtain ⟨past, accept, serving, passes⟩ :=
    exists_accepted_of_converse .initServeReadRequest
      [(.accepted .client sizedOctets, elevenByteFile)]
      (fun accept => decide (accept.after.data.hasError = false) &&
        accept.after.data.fileStream.isOpen && accept.sizes elevenBytes &&
          download.executesTo 6 sizedScript
            (fun history link => decide (link.taken = cut 8 elevenBytes) &&
              history.all fun step => step.input.readsFrom elevenBytes)
            (.accepted accept.after))
      (by decide +kernel)
  simp only [Bool.and_eq_true, decide_eq_true_eq] at passes
  obtain ⟨⟨⟨granted, opened⟩, sizes⟩, executed⟩ := passes
  obtain ⟨history, link, run, passes⟩ :=
    System.exists_run_of_executesTo executed
  simp only [Bool.and_eq_true, decide_eq_true_eq, List.all_eq_true] at passes
  obtain ⟨row, environment, request, _, fired, _, _, _, cases⟩ :=
    serving.accepted (.inl rfl)
  have requested : accept.before.tasks =
      [.process (.requestReceived request)] := cases.running
  simp only [Step.sizes, requested, fired, Bool.and_eq_true,
    decide_eq_true_eq] at sizes
  obtain ⟨numeral, sizes⟩ := sizes
  refine ⟨past, accept, request, history, link, serving, run,
    ⟨numeral, by omega, by omega⟩, passes.1, ?_⟩
  refine announced_download_agrees .loopback past accept row environment
    request elevenBytes history link serving requested fired granted opened ?_
    run passes.2
  intro path size found sized
  have found : environment.readFilePath [] request.fileName = some path :=
    found
  simpa [found, sized] using sizes

end Examples

end MsmTftp
