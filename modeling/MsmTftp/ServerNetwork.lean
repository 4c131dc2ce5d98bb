import MsmTftp.DownloadProtocol
import MsmTftp.JoinedSystem
import MsmTftp.ServerExchange
import MsmTftp.UploadProtocol

/-!
# A file on its way from one client to another

A server is joined with the client of one of its sessions and the network
between them, while the other sessions serve whom they like.  A client that
was acknowledged its last block finds its blocks in the file once the session
is through, and a client that downloads the file afterwards receives them.
-/

namespace MsmTftp

open FileStore JoinedSystem StopAndWait TransferBlocks TransitionSystem

/-- The client makes the move. -/
def UploadMove.byClient : UploadMove → Bool
  | session _ => false
  | offer _ | advance => true

/-- The client makes the move. -/
def DownloadMove.byClient : DownloadMove → Bool
  | session _ => false
  | take _ | acknowledge _ => true

section Model

variable {Session File : Type*} [DecidableEq Session] [DecidableEq File]

/-- A server with the client that uploads some blocks to one of its
sessions. -/
def uploadOver (locate : Bytes → File) (writer : Session)
    (blocks : List Bytes) :
    System (TftpServer Session File × UploadLink)
      (Joint (ServerInput Session) UploadMove) Effect :=
  join (tftpServer locate) (upload blocks)
    (fun input => (input.of? writer).map UploadMove.session)
    UploadMove.byClient

/-- A server with the client that downloads from one of its sessions. -/
def downloadOver (locate : Bytes → File) (reader : Session) :
    System (TftpServer Session File × DownloadLink)
      (Joint (ServerInput Session) DownloadMove) Effect :=
  join (tftpServer locate) download
    (fun input => (input.of? reader).map DownloadMove.session)
    DownloadMove.byClient

end Model

abbrev UploadOverStep (Session File : Type*) :=
  JointStep (TftpServer Session File) UploadLink (ServerInput Session)
    UploadMove Effect

abbrev DownloadOverStep (Session File : Type*) :=
  JointStep (TftpServer Session File) DownloadLink (ServerInput Session)
    DownloadMove Effect

section Sessions

variable {Session File : Type*} [DecidableEq Session] [DecidableEq File]
  {locate : Bytes → File} {before after : TftpServer Session File}
  {signal : ServerInput Session} {effects : List Effect} {own : Session}

omit [DecidableEq File] in
theorem ServerInput.eq_step {input : Input}
    (same : signal.of? own = some input) : signal = .step own input := by
  cases signal with
  | drain session count => cases same
  | step session taken =>
      simp only [ServerInput.of?, Option.ite_none_right_eq_some,
        Option.some.injEq] at same
      rw [same.1, same.2]

theorem machines_of_other
    (taken : before.step locate signal = some (after, effects))
    (other : signal.of? own = none) :
    after.machines own = before.machines own := by
  cases serverCases taken with
  | drain => rfl
  | @step session _ next _ stepped =>
      have different : session ≠ own := by
        rintro rfl
        simp [ServerInput.of?] at other
      exact Function.update_of_ne (Ne.symm different) _ _

theorem machines_of_own {input : Input}
    (taken : before.step locate (.step own input) = some (after, effects)) :
    (before.machines own).step input =
      some (after.machines own, effects) := by
  cases serverCases taken with
  | step stepped =>
      simp only [Function.update_self]
      exact stepped

end Sessions

section Uploads

variable {Session File : Type*} [DecidableEq Session] [DecidableEq File]
  {locate : Bytes → File} {writer : Session} {blocks : List Bytes}
  {start server : TftpServer Session File} {link : UploadLink}
  {history : List (UploadOverStep Session File)}

/-- The session of the client is a session of the server, and what the client
has written is what the server writes for it. -/
theorem uploadOver_same
    (run : (uploadOver locate writer blocks).Run
      (start, .accepted (start.machines writer)) history (server, link)) :
    link.machine = server.machines writer ∧
      link.written =
        writtenBlocks (sessionHistory writer (wholeSteps history)) := by
  apply System.Run.history_invariant run (fun _ => True)
    (fun _ _ => trivial) fun past state =>
      state.2.machine = state.1.machines writer ∧
        state.2.written =
          writtenBlocks (sessionHistory writer (wholeSteps past))
  · exact ⟨rfl, rfl⟩
  · rintro past ⟨⟨before, link⟩, joint, effects, ⟨after, next⟩⟩
      ⟨machine, written⟩ admitted _
    have joined : (uploadOver locate writer blocks).step (before, link)
        joint = some ((after, next), effects) := admitted
    simp only at machine written ⊢
    cases joinCases joined with
    | @both signal _ _ _ _ concerned taken follows =>
        obtain ⟨input, own, rfl⟩ := Option.map_eq_some_iff.mp concerned
        obtain rfl := ServerInput.eq_step own
        have served := machines_of_own taken
        rw [wholeSteps_concat_whole, sessionHistory_own, writtenBlocks_concat,
          ← written]
        have moved : link.step blocks (.session input) =
            some (next, effects) := follows
        cases uploadCases moved with
        | session permitted stepped =>
            rw [machine, served] at stepped
            exact ⟨(Prod.mk.inj (Option.some.inj stepped)).1.symm, rfl⟩
    | whole elsewhere taken =>
        have other := Option.map_eq_none_iff.mp elsewhere
        rw [wholeSteps_concat_whole, sessionHistory_other other,
          machines_of_other taken other]
        exact ⟨machine, written⟩
    | @apart move _ _ own follows =>
        rw [wholeSteps_concat_apart]
        have moved : link.step blocks move = some (next, effects) := follows
        cases uploadCases moved with
        | session => cases own
        | offer => exact ⟨machine, written⟩
        | advance => exact ⟨machine, written⟩

end Uploads

section Downloads

variable {Session File : Type*} [DecidableEq Session] [DecidableEq File]
  {locate : Bytes → File} {reader : Session}
  {start server : TftpServer Session File} {link : DownloadLink}
  {history : List (DownloadOverStep Session File)}

/-- The client's session reads what the server reads for it. -/
theorem downloadOver_reads {content : Bytes}
    (run : (downloadOver locate reader).Run
      (start, .accepted (start.machines reader)) history (server, link))
    (reads : ∀ step ∈ sessionHistory reader (wholeSteps history),
      Step.readsFrom content step = true) :
    ∀ step ∈ partSteps
        (fun input => (input.of? reader).map DownloadMove.session) history,
      DownloadMove.readsFrom content (Transition.input step) = true := by
  intro step member
  rcases mem_partSteps run member with
    ⟨signal, concerned, whole, inside, same⟩ | own
  · obtain ⟨input, taken, moved⟩ := Option.map_eq_some_iff.mp concerned
    have reading := reads
      ⟨whole.before.machines reader, input, whole.outputs,
        whole.after.machines reader⟩
      (List.mem_filterMap.mpr ⟨whole, inside, by
        simp [System.project, same, taken]⟩)
    rw [← moved]
    cases input with
    | fire row environment => exact reading
    | _ => rfl
  · cases move : step.input with
    | session input =>
        rw [move] at own
        cases own
    | _ => rfl

end Downloads

section Files

variable {Session File : Type*} [DecidableEq Session] [DecidableEq File]
  {locate : Bytes → File} {config : Config} {files : File → Bytes}

theorem TftpServer.Reaches.accepted {past rest : List (ServerStep Session File)}
    {accept : ServerStep Session File} {server : TftpServer Session File}
    {own : Session} {action : Action}
    (run : TftpServer.Reaches locate config files (past ++ accept :: rest)
      server)
    (accepts : accept.fires own action = true) :
    ∃ input, Serving config action (sessionHistory own past)
      (accept.own own input) [] (accept.own own input).after := by
  obtain ⟨reached, admitted, _⟩ := System.run_split.mp run
  have start : TftpServer.Reaches locate config files (past ++ [accept])
      accept.after := System.run_concat.mpr ⟨reached, admitted, rfl⟩
  exact start.serving accepts (by simp)

/-- The client and its session are in step. -/
theorem uploadOver_inStep {writer : Session} {blocks : List Bytes}
    {past rest : List (ServerStep Session File)}
    {accept : ServerStep Session File}
    {server middle : TftpServer Session File} {link : UploadLink}
    {sending : List (UploadOverStep Session File)}
    (run : TftpServer.Reaches locate config files (past ++ accept :: rest)
      server)
    (accepts : accept.fires writer .initServeWriteRequest = true)
    (sends : (uploadOver locate writer blocks).Run
      (accept.after, .accepted (accept.after.machines writer)) sending
      (middle, link)) :
    link.InStep blocks := by
  obtain ⟨input, serving⟩ := run.accepted accepts
  obtain ⟨trace, twin, reached, same⟩ :=
    serving.refines_upload (run_part sends)
  exact same.inStep (sound_of_run reached)

end Files

/-- An acknowledged upload is in the file: when the client of a session was
acknowledged its last block and the stream was flushed, the file consists of
the blocks of the client, whatever the network lost, repeated and reordered
and whatever the other sessions did, none of which wrote the file. -/
theorem acknowledged_file_stored {Session File : Type*}
    [DecidableEq Session] [DecidableEq File] (locate : Bytes → File)
    (config : Config) (files : File → Bytes) (writer : Session) (file : File)
    (blocks : List Bytes) (few : blocks.length < 65536)
    (past : List (ServerStep Session File)) (accept : ServerStep Session File)
    (sending : List (UploadOverStep Session File))
    (close : ServerStep Session File) (stored : TftpServer Session File)
    (upload : UploadOf locate config files writer file past accept
      (wholeSteps sending) close stored)
    (alone : ∀ step ∈ accept :: wholeSteps sending,
      TftpServer.Alone (Transition.after step) writer file)
    (link : UploadLink)
    (sends : (uploadOver locate writer blocks).Run
      (accept.after, .accepted (accept.after.machines writer)) sending
      (close.before, link))
    (acknowledged : Packet.ackPacket (UInt16.ofNat blocks.length) ∈
      link.answers) :
    stored.store.content file = blocks.flatten := by
  have inStep := uploadOver_inStep upload.run upload.accepts sends
  rw [(upload.stored alone).2, ← (uploadOver_same sends).2,
    inStep.whole few acknowledged]

/-- A file that one client was acknowledged is the file that another client
receives: as long as no other write request for the file is accepted, the
blocks of the second client are a beginning of the file of the first, and the
whole of it once a short block or the final ACK has arrived. -/
theorem sent_file_received {Session File : Type*}
    [DecidableEq Session] [DecidableEq File] (locate : Bytes → File)
    (config : Config) (files : File → Bytes) (writer reader : Session)
    (file : File) (blocks : List Bytes) (few : blocks.length < 65536)
    (past : List (ServerStep Session File)) (accept : ServerStep Session File)
    (sending : List (UploadOverStep Session File))
    (close : ServerStep Session File) (stored : TftpServer Session File)
    (upload : UploadOf locate config files writer file past accept
      (wholeSteps sending) close stored)
    (alone : ∀ step ∈ accept :: wholeSteps sending,
      TftpServer.Alone (Transition.after step) writer file)
    (link : UploadLink)
    (sends : (uploadOver locate writer blocks).Run
      (accept.after, .accepted (accept.after.machines writer)) sending
      (close.before, link))
    (acknowledged : Packet.ackPacket (UInt16.ofNat blocks.length) ∈
      link.answers)
    (between : List (ServerStep Session File))
    (request : ServerStep Session File)
    (receiving : List (DownloadOverStep Session File))
    (server : TftpServer Session File)
    (download : DownloadOf locate stored reader file between request
      (wholeSteps receiving) server)
    (keeps : ∀ step ∈ between ++ request :: wholeSteps receiving,
      ¬ ServerStep.Rewrites step file)
    (client : DownloadLink)
    (receives : (downloadOver locate reader).Run
      (request.after, .accepted (request.after.machines reader)) receiving
      (server, client)) :
    client.InStep (request.after.machines reader).data.agreedBlockSize
      blocks.flatten := by
  have inStep := uploadOver_inStep upload.run upload.accepts sends
  obtain ⟨quiet, content⟩ := upload.stored alone
  have reached := upload.run
  obtain ⟨settled, calm, unchanged, opened⟩ :=
    download.begins (TftpServer.Reaches.wellFormed reached) quiet keeps
  have whole : TftpServer.Reaches locate config files
      ((past ++ accept :: (wholeSteps sending ++ [close])) ++ between ++
        request :: wholeSteps receiving) server := by
    rw [List.append_assoc]
    exact System.run_append.mpr ⟨stored, reached, download.run⟩
  obtain ⟨input, serving⟩ := whole.accepted download.accepts
  rw [← (uploadOver_same sends).2, inStep.whole few acknowledged] at content
  have reads := calm.readsFrom settled (unchanged.trans content)
    (run_whole receives) (fun step member => keeps step (by simp [member]))
    download.reads
  obtain ⟨trace, twin, matched, same⟩ := serving.refines opened
    (run_part receives) (downloadOver_reads receives reads)
  exact same.inStep (sound_of_run matched) serving.agreedBlockSize_pos

section Examples

/-- The file that a client of the first session writes and one of the second
session reads. -/
private def fileOfByte : Bytes :=
  asciiBytes ['f']

private def openFor (session : Bool) (step : ServerStep Bool Bytes) : Bool :=
  (step.after.store.handles session).any
    fun handle => handle.file == fileOfByte

/-- The second session leaves the file alone, and the first one writes it. -/
private def writesAlone (step : ServerStep Bool Bytes) : Bool :=
  !step.fires false .reset && (step.after.store.handles true).isNone &&
    match step.input with
    | .step _ (.fire _ environment) => environment.acceptsWrite
    | _ => true

private def sendByte :
    List (Joint (ServerInput Bool) UploadMove ×
      (TftpServer Bool Bytes × UploadLink →
        Option (Joint (ServerInput Bool) UploadMove))) :=
  let settles (state : TftpServer Bool Bytes × UploadLink) :=
    ((state.1.machines false).pending {}).map fun input =>
      Joint.whole (ServerInput.step false input)
  let own completion :=
    (Joint.whole (ServerInput.step false (.complete completion)), settles)
  [(.whole (.drain false 0), settles), own (.sent false),
    (.apart .advance, fun _ => none), (.apart (.offer 1), fun _ => none),
    own (.received .client (smallBlock 1 7)), own (.sent false),
    own .receiveFailed, own (.sent false), own .receiveFailed,
    own (.sent false), own .receiveFailed, own (.sent false),
    (.whole (.step false (.complete .receiveFailed)), fun _ => none),
    (.apart (.offer 1), fun _ => none)]

private def resetUpload : List (ServerInput Bool ×
    (TftpServer Bool Bytes → Option (ServerInput Bool))) :=
  [(.step false (.fire ⟨.waitingForData, some .timedOut, .resetted, .reset,
      .not .canRetry⟩ {}), fun _ => none),
    (.drain false 0, fun _ => none)]

private def checkClose (check : TftpServer Bool Bytes → Bool)
    (history : List (ServerStep Bool Bytes))
    (stored : TftpServer Bool Bytes) : Bool :=
  match history with
  | [close] =>
      (match close.input with
        | .step false (.fire row environment) =>
            decide (row.action = .reset) && environment.flushes
        | _ => false) && check stored
  | _ => false

private def checkSend (check : TftpServer Bool Bytes → Bool)
    (sending : List (UploadOverStep Bool Bytes))
    (state : TftpServer Bool Bytes × UploadLink) : Bool :=
  (wholeSteps sending).all writesAlone &&
    decide (Packet.ackPacket 1 ∈ state.2.answers) &&
      (tftpServer id).executesTo 7 resetUpload (checkClose check) state.1

private def checkPut (check : TftpServer Bool Bytes → Bool)
    (history : List (ServerStep Bool Bytes))
    (server : TftpServer Bool Bytes) : Bool :=
  history.getLast?.any (fun accept =>
      accept.fires false .initServeWriteRequest && openFor false accept &&
        (accept.after.store.handles true).isNone) &&
    (uploadOver id false [[7]]).executesTo 7 sendByte (checkSend check)
      (server, .accepted (server.machines false))

/-- What is needed of an upload to follow its file. -/
private structure Sent (blocks : List Bytes) (past : List (ServerStep Bool Bytes))
    (accept : ServerStep Bool Bytes)
    (sending : List (UploadOverStep Bool Bytes))
    (close : ServerStep Bool Bytes) (stored : TftpServer Bool Bytes)
    (link : UploadLink) : Prop where
  upload : UploadOf id .loopback (fun _ => []) false fileOfByte past accept
    (wholeSteps sending) close stored
  alone : ∀ step ∈ accept :: wholeSteps sending,
    TftpServer.Alone (Transition.after step) false fileOfByte
  sends : (uploadOver id false blocks).Run
    (accept.after, .accepted (accept.after.machines false)) sending
    (close.before, link)
  acknowledged : Packet.ackPacket (UInt16.ofNat blocks.length) ∈ link.answers

private theorem alone_of_isNone {server : TftpServer Bool Bytes}
    (none : (server.store.handles true).isNone = true) :
    server.Alone false fileOfByte := by
  intro other different handle found
  obtain rfl : other = true := by simpa using different
  rw [Option.isNone_iff_eq_none.mp none] at found
  cases found

private theorem exists_sent_of_check (check : TftpServer Bool Bytes → Bool)
    (checked : (tftpServer id).executesTo 7
      (TftpServer.script [(.step false (.complete
        (.accepted .client (requestOf .writeRequest))), {})])
      (checkPut check)
      (TftpServer.started .loopback fun _ : Bytes => []) = true) :
    ∃ past accept sending close stored link,
      Sent [[7]] past accept sending close stored link ∧
        check stored = true := by
  obtain ⟨history, server, run, passes⟩ :=
    System.exists_run_of_executesTo checked
  simp only [checkPut, Bool.and_eq_true, Option.any_eq_true] at passes
  obtain ⟨⟨accept, last, ⟨accepts, opens⟩, closed⟩, executed⟩ := passes
  obtain ⟨past, rfl⟩ := List.getLast?_eq_some_iff.mp last
  obtain ⟨before, admitted, rfl⟩ := System.run_concat.mp run
  obtain ⟨sending, ⟨middle, link⟩, sends, passes⟩ :=
    System.exists_run_of_executesTo executed
  simp only [checkSend, Bool.and_eq_true, List.all_eq_true,
    decide_eq_true_eq] at passes
  obtain ⟨⟨serves, acknowledged⟩, executed⟩ := passes
  obtain ⟨ending, stored, ends, passes⟩ :=
    System.exists_run_of_executesTo executed
  rcases ending with _ | ⟨close, _ | ⟨other, more⟩⟩
  · simp [checkClose] at passes
  · obtain ⟨rfl, closing, rfl⟩ := System.run_cons.mp ends
    simp only [checkClose, Bool.and_eq_true] at passes
    obtain ⟨resets, passes⟩ := passes
    obtain ⟨handle, found, same⟩ := (Option.any_eq_true _ _).mp opens
    refine ⟨past, accept, sending, close, close.after, link,
      ⟨⟨System.run_split.mpr ⟨before, admitted, System.run_append.mpr
        ⟨close.before, run_whole sends, rfl, closing, rfl⟩⟩, accepts,
          ⟨handle, found, by simpa using same⟩, ?_, ?_, ?_⟩, ?_, sends,
        acknowledged⟩, passes⟩
    · intro step member
      have serving := serves step member
      simp only [writesAlone, Bool.and_eq_true, Bool.not_eq_true']
        at serving
      exact serving.1.1
    · intro step member row environment taken _
      have serving := serves step member
      rw [writesAlone, taken, Bool.and_eq_true] at serving
      exact serving.2
    · split at resets
      · rename_i row environment taken
        rw [Bool.and_eq_true, decide_eq_true_eq] at resets
        exact ⟨row, environment, taken, resets⟩
      · cases resets
    · intro step member
      rcases List.mem_cons.mp member with rfl | inside
      · exact alone_of_isNone closed
      · have serving := serves step inside
        simp only [writesAlone, Bool.and_eq_true] at serving
        exact alone_of_isNone serving.1.2
  · simp [checkClose] at passes

/-- The second session reads the file, and nobody writes it. -/
private def readsAlone (step : ServerStep Bool Bytes) : Bool :=
  !step.fires true .initServeWriteRequest &&
    !step.fires false .initServeWriteRequest &&
      match step.input with
      | .step true (.fire row environment) =>
          row.action != .formDataPacket ||
            (environment.content == step.before.store.content fileOfByte &&
              environment.readError.isNone)
      | _ => true

private def requestByte : List (ServerInput Bool ×
    (TftpServer Bool Bytes → Option (ServerInput Bool))) :=
  TftpServer.script
    [(.step true (.complete (.accepted .client (requestOf .readRequest))),
      { content := [7] })]

private def receiveByte :
    List (Joint (ServerInput Bool) DownloadMove ×
      (TftpServer Bool Bytes × DownloadLink →
        Option (Joint (ServerInput Bool) DownloadMove))) :=
  let settles (state : TftpServer Bool Bytes × DownloadLink) :=
    ((state.1.machines true).pending { content := [7] }).map fun input =>
      Joint.whole (ServerInput.step true input)
  [(.whole (.drain true 0), settles),
    (.apart (.take (Packet.dataPacket 1 [7])), fun _ => none),
    (.apart (.acknowledge 1), fun _ => none)]

private def checkReceive (receiving : List (DownloadOverStep Bool Bytes))
    (state : TftpServer Bool Bytes × DownloadLink) : Bool :=
  (wholeSteps receiving).all (fun step =>
      readsAlone step && !ServerStep.fires step true .reset) &&
    state.2.taken == [[7]]

private def checkRequest (history : List (ServerStep Bool Bytes))
    (server : TftpServer Bool Bytes) : Bool :=
  history.getLast?.any (fun request =>
      request.fires true .initServeReadRequest && openFor true request) &&
    history.all readsAlone &&
      (downloadOver id true).executesTo 7 receiveByte checkReceive
        (server, .accepted (server.machines true))

/-- The byte that the first client sent is in the file. -/
theorem sent_byte_stored :
    ∃ history stored,
      TftpServer.Reaches id .loopback (fun _ : Bytes => [])
        (history : List (ServerStep Bool Bytes)) stored ∧
      stored.store.content (asciiBytes ['f']) = [7] := by
  obtain ⟨past, accept, sending, close, stored, link, sent, _⟩ :=
    exists_sent_of_check (fun _ => true) (by decide +kernel)
  exact ⟨_, stored, sent.upload.run,
    acknowledged_file_stored id .loopback (fun _ => []) false fileOfByte [[7]]
      (by decide) past accept sending close stored sent.upload sent.alone link
      sent.sends sent.acknowledged⟩

/-- The byte that the first client sent is received by the second one. -/
theorem sent_byte_received :
    ∃ (machine : Machine) (client : DownloadLink), client.taken = [[7]] ∧
      client.InStep machine.data.agreedBlockSize [7] := by
  obtain ⟨past, accept, sending, close, stored, link, sent, passes⟩ :=
    exists_sent_of_check
      ((tftpServer id).executesTo 7 requestByte checkRequest)
      (by decide +kernel)
  obtain ⟨history, server, run, passes⟩ :=
    System.exists_run_of_executesTo passes
  simp only [checkRequest, Bool.and_eq_true, Option.any_eq_true,
    List.all_eq_true] at passes
  obtain ⟨⟨⟨request, last, accepts, opens⟩, quiet⟩, executed⟩ := passes
  obtain ⟨between, rfl⟩ := List.getLast?_eq_some_iff.mp last
  obtain ⟨before, admitted, rfl⟩ := System.run_concat.mp run
  obtain ⟨receiving, ⟨server, client⟩, receives, passes⟩ :=
    System.exists_run_of_executesTo executed
  simp only [checkReceive, Bool.and_eq_true, List.all_eq_true, beq_iff_eq,
    Bool.not_eq_true'] at passes
  obtain ⟨serves, taken⟩ := passes
  obtain ⟨handle, found, same⟩ := (Option.any_eq_true _ _).mp opens
  refine ⟨request.after.machines true, client, taken,
    sent_file_received id .loopback (fun _ => []) false true fileOfByte [[7]]
      (by decide) past accept sending close stored sent.upload sent.alone link
      sent.sends sent.acknowledged between request receiving server
      ⟨System.run_split.mpr ⟨before, admitted, run_whole receives⟩, accepts,
        ⟨handle, found, by simpa using same⟩,
        fun step member => (serves step member).2, ?_⟩ ?_ client receives⟩
  · intro step member row environment input forms
    have reads := (serves step member).1
    simp only [readsAlone, input, Bool.and_eq_true, Bool.or_eq_true,
      bne_iff_ne, beq_iff_eq, Option.isNone_iff_eq_none] at reads
    exact reads.2.resolve_left fun other => other forms
  · rintro step member ⟨session, writes, _⟩
    have reads : readsAlone step = true := by
      rw [List.append_cons, List.mem_append] at member
      rcases member with earlier | later
      · exact quiet step earlier
      · exact (serves step later).1
    simp only [readsAlone, Bool.and_eq_true, Bool.not_eq_true'] at reads
    cases session with
    | true => rw [reads.1.1] at writes; cases writes
    | false => rw [reads.1.2] at writes; cases writes

end Examples

end MsmTftp
