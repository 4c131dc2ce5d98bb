import MsmTftp.ServerLoss
import MsmTftp.SessionDownload

/-!
# A file that was uploaded is the file that is downloaded

An upload that ends with a flushed stream leaves the blocks it wrote in the
file.  Until the next write request for this file is accepted, no step of the
server changes the file, whatever its sessions do, so a download of the file
delivers exactly the uploaded bytes.
-/

namespace MsmTftp

open FileStore TransitionSystem

section Model

variable {Session File : Type*}

/-- No session has the file open for writing. -/
def TftpServer.Quiet (server : TftpServer Session File) (file : File) :
    Prop :=
  ∀ session, ∀ handle ∈ server.store.handles session,
    handle.truncated = true → handle.file ≠ file

variable [DecidableEq Session]

/-- The step accepts a write request for the file. -/
def ServerStep.Rewrites (step : ServerStep Session File) (file : File) :
    Prop :=
  ∃ session, step.fires session .initServeWriteRequest = true ∧
    ∃ handle ∈ step.after.store.handles session, handle.file = file

/-- When the step reads a block for a session, it reads from a file of the
server, and the read stops at its end only. -/
def ServerStep.ReadsFile (step : ServerStep Session File) (session : Session)
    (file : File) : Prop :=
  ∀ row environment, step.input = .step session (.fire row environment) →
    row.action = .formDataPacket →
      environment.content = step.before.store.content file ∧
        environment.readError = none

end Model

section Stability

variable {Session File : Type*} [DecidableEq Session] [DecidableEq File]
  {locate : Bytes → File} {config : Config} {session : Session}
  {file : File} {before after server : TftpServer Session File}
  {signal : ServerInput Session} {effects : List Effect}

omit [DecidableEq Session] [DecidableEq File] in
/-- Nothing is left to be written to a file that no session writes. -/
theorem TftpServer.Quiet.spares (quiet : server.Quiet file)
    (wellFormed : server.WellFormed config) (session : Session) :
    server.store.Spares session file := by
  intro handle found same
  cases truncated : handle.truncated with
  | true => exact absurd same (quiet session handle found truncated)
  | false =>
      exact ((wellFormed.fits session).reads handle found truncated).1

theorem TftpServer.Quiet.touch (quiet : before.Quiet file)
    (wellFormed : before.WellFormed config) {input : Input} {next : Machine}
    (stepped : (before.machines session).step input = some (next, effects))
    (keeps : Step.Fires ⟨before.machines session, input, effects, next⟩
      .initServeWriteRequest →
        ∀ handle ∈ (effects.foldl (touch locate session
          next.data.fileStream.isOpen input.flushes) before.store).handles
            session, handle.file ≠ file) :
    (∀ handle ∈ (effects.foldl (MsmTftp.touch locate session
        next.data.fileStream.isOpen input.flushes) before.store).handles
          session, handle.truncated = true → handle.file ≠ file) ∧
      (effects.foldl (MsmTftp.touch locate session
        next.data.fileStream.isOpen input.flushes) before.store).content
          file = before.store.content file := by
  have earlier := quiet session
  have spares := quiet.spares wellFormed session
  rw [foldl_touch] at keeps ⊢
  cases (wellFormed.machines session).fileCases stepped with
  | keeps touches stream ends =>
      rw [touches]
      exact ⟨earlier, rfl⟩
  | @opens path truncates touches accepts fires served =>
      rw [touches] at keeps ⊢
      simp only [List.foldl_cons, List.foldl_nil, MsmTftp.touch] at keeps ⊢
      split
      · rename_i opened
        rw [if_pos opened] at keeps
        cases truncates with
        | true =>
            have elsewhere := keeps fires ⟨locate path, true, 0, []⟩
              (Store.handles_openFile _ _)
            refine ⟨fun handle found _ => ?_, ?_⟩
            · rw [Store.handles_openFile, Option.mem_some_iff] at found
              rw [← found]
              exact elsewhere
            · exact Function.update_of_ne (Ne.symm elsewhere) _ _
        | false =>
            refine ⟨fun handle found truncated => ?_, rfl⟩
            rw [Store.handles_openFile, Option.mem_some_iff] at found
            rw [← found] at truncated
            cases truncated
      · exact ⟨earlier, rfl⟩
  | @writes bytes touches waits fires lands stream =>
      rw [touches]
      refine ⟨fun handle found truncated => ?_, rfl⟩
      simp only [List.foldl_cons, List.foldl_nil, MsmTftp.touch,
        Store.handles_write, Option.mem_def, Option.map_eq_some_iff] at found
      obtain ⟨held, here, rfl⟩ := found
      exact earlier held here truncated
  | closes touches resets stream =>
      rw [touches]
      simp only [List.foldl_cons, List.foldl_nil, MsmTftp.touch,
        Store.handles_close]
      exact ⟨by simp, Store.content_close_other spares _⟩

theorem TftpServer.Quiet.step (quiet : before.Quiet file)
    (wellFormed : before.WellFormed config)
    (stepped : before.step locate signal = some (after, effects))
    (keeps : ¬ ServerStep.Rewrites ⟨before, signal, effects, after⟩ file) :
    after.Quiet file ∧
      after.store.content file = before.store.content file := by
  cases serverCases stepped with
  | @step session input next effects taken =>
      obtain ⟨own, content⟩ := quiet.touch wellFormed taken (by
        rintro ⟨row, environment, rfl, writes⟩ handle found same
        exact keeps ⟨session,
          fires_step.mpr ⟨rfl, row, environment, rfl, writes⟩, handle, found,
          same⟩)
      refine ⟨fun other handle found => ?_, content⟩
      by_cases same : other = session
      · subst same
        exact own handle found
      · rw [handles_touch_other same] at found
        exact quiet other handle found
  | @drain session count =>
      refine ⟨fun other handle found truncated => ?_,
        Store.content_drain_other (quiet.spares wellFormed session) count⟩
      by_cases same : other = session
      · subst same
        cases held : before.store.handles other with
        | none =>
            rw [Store.drain_of_closed held] at found
            exact quiet other handle found truncated
        | some current =>
            rw [Store.handles_drain held, Option.mem_some_iff] at found
            rw [← found] at truncated ⊢
            exact quiet other current held truncated
      · rw [Store.handles_drain_other same] at found
        exact quiet other handle found truncated

/-- A quiet file stays as it is while no write request for it is accepted. -/
theorem TftpServer.Quiet.run {history : List (ServerStep Session File)}
    (quiet : before.Quiet file) (wellFormed : before.WellFormed config)
    (run : (tftpServer locate).Run before history after)
    (keeps : ∀ step ∈ history, ¬ ServerStep.Rewrites step file) :
    after.Quiet file ∧
      after.store.content file = before.store.content file := by
  refine (run.invariant_of (fun step => ¬ ServerStep.Rewrites step file) keeps
    (fun server => server.WellFormed config ∧ server.Quiet file ∧
      server.store.content file = before.store.content file)
    ⟨wellFormed, quiet, rfl⟩ ?_).2
  rintro ⟨before, signal, effects, after⟩ ⟨wellFormed, quiet, same⟩ admitted
    keeps
  obtain ⟨later, content⟩ := quiet.step wellFormed admitted keeps
  exact ⟨wellFormed.step admitted, later, content.trans same⟩

end Stability

theorem Machine.WellFormed.closed_of_reset {machine next : Machine}
    {input : Input} {effects : List Effect} {config : Config}
    (wellFormed : machine.WellFormed config)
    (busy : machine.state.busy = true)
    (stepped : machine.step input = some (next, effects))
    (resets : Step.Fires ⟨machine, input, effects, next⟩ .reset) :
    next.data.fileStream.isOpen = false := by
  cases wellFormed.fileCases stepped with
  | keeps touches stream ends => exact ends resets
  | opens touches accepts fires served => simp [accepts, State.busy] at busy
  | writes touches waits fires lands stream =>
      obtain ⟨row, environment, same, action⟩ := resets
      obtain ⟨other, _, taken, writes⟩ := fires
      obtain ⟨rfl, _⟩ := Input.fire.inj (same.symm.trans taken)
      simp [action] at writes
  | closes touches resets stream => exact stream

section Exchange

variable {Session File : Type*} [DecidableEq Session] [DecidableEq File]
  {locate : Bytes → File} {config : Config} {files : File → Bytes}
  {session : Session} {file : File}
  {past rest : List (ServerStep Session File)}
  {accept close : ServerStep Session File}
  {server : TftpServer Session File}

/-- After the `Reset` that ends an upload no session writes the file. -/
theorem Storing.quiet {history : List (ServerStep Session File)}
    {before after : TftpServer Session File} {effects : List Effect}
    {row : Row} {environment : Environment}
    (storing : Storing config session file history before)
    (stepped : before.step locate
      (.step session (.fire row environment)) = some (after, effects))
    (resets : row.action = .reset) : after.Quiet file := by
  have settled := storing.wellFormed.step stepped
  cases serverCases stepped with
  | @step _ _ next _ taken =>
      have shut := (storing.wellFormed.machines session).closed_of_reset
        storing.busy taken ⟨row, environment, rfl, resets⟩
      intro other handle found truncated
      by_cases same : other = session
      · subst same
        have fits := (settled.fits other).isOpen
        simp only [Function.update_self] at fits
        rw [found, shut] at fits
        cases fits
      · rw [handles_touch_other same] at found
        exact storing.alone other same handle found truncated

/-- A flushed upload leaves its blocks in the file, and no session writes the
file any more. -/
theorem UploadOf.stored
    (upload : UploadOf locate config files session file past accept rest close
      server)
    (alone : ∀ step ∈ accept :: rest,
      TftpServer.Alone (Transition.after step) session file) :
    server.Quiet file ∧ server.store.content file =
      (writtenBlocks (sessionHistory session rest)).flatten := by
  obtain ⟨run, accepts, opens, ongoing, _, row, environment, ends, resets,
    flushes⟩ := upload
  obtain ⟨storing, closed, rfl⟩ :=
    Storing.of_run run accepts opens ongoing alone
  obtain ⟨before, signal, effects, after⟩ := close
  obtain rfl : signal = .step session (.fire row environment) := ends
  exact ⟨storing.quiet closed resets, storing.close closed resets flushes⟩

theorem TftpServer.Quiet.readsFrom {content : Bytes}
    {history : List (ServerStep Session File)}
    {before after : TftpServer Session File} (quiet : before.Quiet file)
    (wellFormed : before.WellFormed config)
    (same : before.store.content file = content)
    (run : (tftpServer locate).Run before history after)
    (keeps : ∀ step ∈ history, ¬ ServerStep.Rewrites step file)
    (reads : ∀ step ∈ history, ServerStep.ReadsFile step session file) :
    ∀ step ∈ sessionHistory session history,
      Step.readsFrom content step = true := by
  intro step member
  obtain ⟨whole, inside, projected⟩ := List.mem_filterMap.mp member
  obtain ⟨input, own, rfl⟩ := Option.map_eq_some_iff.mp projected
  obtain ⟨earlier, later, rfl⟩ := List.append_of_mem inside
  obtain ⟨past, _, _⟩ := System.run_split.mp run
  obtain ⟨_, unchanged⟩ := quiet.run wellFormed past fun step member =>
    keeps step (List.mem_append_left _ member)
  have reading := reads whole inside
  obtain ⟨source, signal, effects, target⟩ := whole
  have own : signal.of? session = some input := own
  cases signal with
  | drain => cases own
  | step other taken =>
      simp only [ServerInput.of?, Option.ite_none_right_eq_some,
        Option.some.injEq] at own
      obtain ⟨rfl, rfl⟩ := own
      cases taken with
      | fire row environment =>
          by_cases forms : row.action = .formDataPacket
          · obtain ⟨shown, noError⟩ := reading row environment rfl forms
            rw [unchanged, same] at shown
            simp [Step.readsFrom, shown, noError]
          · simp [Step.readsFrom, forms]
      | _ => rfl

end Exchange

/-- After some steps of the server a session accepts a read request for the
file and serves it; it reads the file as the server has it. -/
structure DownloadOf {Session File : Type*} [DecidableEq Session]
    [DecidableEq File] (locate : Bytes → File)
    (start : TftpServer Session File) (session : Session) (file : File)
    (between : List (ServerStep Session File))
    (accept : ServerStep Session File) (rest : List (ServerStep Session File))
    (server : TftpServer Session File) : Prop where
  run : (tftpServer locate).Run start (between ++ accept :: rest) server
  accepts : accept.fires session .initServeReadRequest = true
  opens : ∃ handle ∈ accept.after.store.handles session, handle.file = file
  ongoing : ∀ step ∈ rest, ServerStep.fires step session .reset = false
  reads : ∀ step ∈ rest, ServerStep.ReadsFile step session file

/-- A download of a quiet file begins with the content the file had. -/
theorem DownloadOf.begins {Session File : Type*} [DecidableEq Session]
    [DecidableEq File] {locate : Bytes → File} {config : Config}
    {start server : TftpServer Session File} {session : Session} {file : File}
    {between rest : List (ServerStep Session File)}
    {accept : ServerStep Session File}
    (download : DownloadOf locate start session file between accept rest
      server)
    (wellFormed : start.WellFormed config) (quiet : start.Quiet file)
    (keeps : ∀ step ∈ between ++ accept :: rest,
      ¬ ServerStep.Rewrites step file) :
    accept.after.WellFormed config ∧ accept.after.Quiet file ∧
      accept.after.store.content file = start.store.content file ∧
        (accept.after.machines session).data.fileStream.isOpen = true := by
  obtain ⟨run, _, ⟨handle, found, _⟩, _, _⟩ := download
  obtain ⟨first, admitted, _⟩ := System.run_split.mp run
  have reached : (tftpServer locate).Run start (between ++ [accept])
      accept.after := System.run_concat.mpr ⟨first, admitted, rfl⟩
  have settled : accept.after.WellFormed config :=
    reached.invariant (TftpServer.WellFormed config) wellFormed
      fun _ formed admitted => formed.step admitted
  obtain ⟨calm, unchanged⟩ := quiet.run wellFormed reached fun step member =>
    keeps step (by
      rcases List.mem_append.mp member with earlier | here
      · exact List.mem_append_left _ earlier
      · rw [List.mem_singleton.mp here]
        simp)
  refine ⟨settled, calm, unchanged, ?_⟩
  have isOpen := (settled.fits session).isOpen
  rw [Option.mem_def.mp found] at isOpen
  exact isOpen.symm

/-- A file that was uploaded is downloaded as it was uploaded: as long as no
other write request for the file is accepted, the final ACK of a download finds
exactly the blocks of the upload delivered. -/
theorem put_then_get {Session File : Type*} [DecidableEq Session]
    [DecidableEq File] (locate : Bytes → File) (config : Config)
    (files : File → Bytes) (writer reader : Session) (file : File)
    (past : List (ServerStep Session File)) (accept : ServerStep Session File)
    (rest : List (ServerStep Session File)) (close : ServerStep Session File)
    (stored : TftpServer Session File)
    (upload : UploadOf locate config files writer file past accept rest close
      stored)
    (alone : ∀ step ∈ accept :: rest,
      TftpServer.Alone (Transition.after step) writer file)
    (between : List (ServerStep Session File))
    (request : ServerStep Session File)
    (reading : List (ServerStep Session File))
    (server : TftpServer Session File)
    (download : DownloadOf locate stored reader file between request reading
      server)
    (keeps : ∀ step ∈ between ++ request :: reading,
      ¬ ServerStep.Rewrites step file)
    (final : (server.machines reader).FinalAck) :
    ((formedPackets (sessionHistory reader reading)).map
        Packet.payload).flatten =
      (writtenBlocks (sessionHistory writer rest)).flatten := by
  obtain ⟨quiet, content⟩ := upload.stored alone
  have reached := upload.run
  obtain ⟨settled, calm, unchanged, opened⟩ :=
    download.begins (TftpServer.Reaches.wellFormed reached) quiet keeps
  obtain ⟨run, accepts, _, ongoing, reads⟩ := download
  obtain ⟨_, _, serves⟩ := System.run_split.mp run
  have whole : TftpServer.Reaches locate config files
      ((past ++ accept :: (rest ++ [close])) ++ between ++
        request :: reading) server := by
    rw [List.append_assoc]
    exact System.run_append.mpr ⟨stored, reached, run⟩
  obtain ⟨input, serving⟩ := whole.serving accepts ongoing
  have downloading := serving.downloading opened
    (calm.readsFrom settled (unchanged.trans content) serves
      (fun step member => keeps step (by simp [member])) reads)
  exact (downloading.delivered final).whole

section Examples

private theorem sevenPacket_fits :
    (Packet.dataPacket 1 [7]).length ≤ 65507 := by
  decide

/-- An upload of one byte by the first session. -/
private def putByte : List (ServerInput Bool × Environment) :=
  let own completion := (ServerInput.step false (.complete completion), {})
  [own (.accepted .client (requestOf .writeRequest)), own (.sent false),
    own (.received .client ⟨Packet.dataPacket 1 [7], sevenPacket_fits⟩),
    own (.sent false), own .receiveFailed, own (.sent false),
    own .receiveFailed, own (.sent false), own .receiveFailed,
    own (.sent false), own .receiveFailed]

/-- A download by the second session, up to the final ACK. -/
private def getByte : List (ServerInput Bool ×
    (TftpServer Bool Bytes → Option (ServerInput Bool))) :=
  let own completion :=
    (ServerInput.step true (.complete completion), { content := [7] })
  TftpServer.script
      [own (.accepted .client (requestOf .readRequest)), own (.sent false)] ++
    [(.step true (.complete (.received .client (ackOf 1))), fun _ => none),
      (.drain true 0, fun _ => none)]

private def fileName : Bytes :=
  asciiBytes ['f']

/-- A check of the steps of a download. -/
private def checkGet (history : List (ServerStep Bool Bytes))
    (server : TftpServer Bool Bytes) : Bool :=
  match history with
  | _ :: _ :: request :: reading =>
      request.fires true .initServeReadRequest &&
        (request.after.store.handles true).any
          (fun handle => handle.file == fileName) &&
        reading.all (fun step => !step.fires true .reset &&
          match step.input with
          | .step true (.fire row environment) =>
              row.action != .formDataPacket ||
                (environment.content == step.before.store.content fileName &&
                  environment.readError.isNone)
          | _ => true) &&
        history.all (fun step =>
          !step.fires true .initServeWriteRequest &&
            !step.fires false .initServeWriteRequest) &&
        decide (server.machines true).FinalAck
  | _ => false

private theorem exists_download_of_check {start server : TftpServer Bool Bytes}
    {history : List (ServerStep Bool Bytes)}
    (run : (tftpServer id).Run start history server)
    (passes : checkGet history server = true) :
    ∃ between request reading,
      DownloadOf id start true fileName between request reading server ∧
        (∀ step ∈ between ++ request :: reading,
          ¬ ServerStep.Rewrites step fileName) ∧
        (server.machines true).FinalAck := by
  match history, run, passes with
  | first :: second :: request :: reading, run, passes =>
      simp only [checkGet, Bool.and_eq_true, List.all_eq_true,
        Option.any_eq_true, Bool.not_eq_true', beq_iff_eq,
        decide_eq_true_eq] at passes
      obtain ⟨⟨⟨⟨accepts, handle, found, same⟩, serves⟩, quiet⟩, final⟩ :=
        passes
      refine ⟨[first, second], request, reading,
        ⟨run, accepts, ⟨handle, found, same⟩,
          fun step member => (serves step member).1, ?_⟩, ?_, final⟩
      · intro step member row environment taken forms
        have reads := (serves step member).2
        rw [taken] at reads
        simpa [forms] using reads
      · rintro step member ⟨session, writes, _⟩
        obtain ⟨other, own⟩ := quiet step member
        cases session with
        | true => simp [other] at writes
        | false => simp [own] at writes

/-- A byte that was put by one session is got by the other. -/
theorem byte_put_then_got :
    ∃ past accept rest close stored between request reading server,
      UploadOf id .loopback (fun _ : Bytes => []) false fileName past accept
          rest close stored ∧
        DownloadOf id stored true fileName between request reading server ∧
          (writtenBlocks (sessionHistory false rest)).flatten = [7] ∧
            ((formedPackets (sessionHistory true reading)).map
              Packet.payload).flatten = [7] := by
  obtain ⟨history, stored, run, passes⟩ :=
    (tftpServer id).exists_run_of_execute
      (TftpServer.started .loopback fun _ : Bytes => []) 7
      (TftpServer.script putByte)
      (checkUpload fun steps stored =>
        steps.all (fun step => (step.after.store.handles true).isNone) &&
          decide ((writtenBlocks (sessionHistory false
            steps.tail)).flatten = [7]) &&
            (tftpServer id).executesTo 7 getByte checkGet stored)
      (by decide +kernel)
  obtain ⟨past, accept, rest, close, upload, passes⟩ :=
    exists_upload_of_check run passes
  simp only [Bool.and_eq_true, List.all_eq_true, Option.isNone_iff_eq_none,
    List.tail_cons] at passes
  obtain ⟨⟨closed, written⟩, executed⟩ := passes
  have written := of_decide_eq_true written
  obtain ⟨steps, server, serves, passes⟩ :=
    System.exists_run_of_executesTo executed
  obtain ⟨between, request, reading, download, keeps, final⟩ :=
    exists_download_of_check serves passes
  refine ⟨past, accept, rest, close, stored, between, request, reading,
    server, upload, download, written, ?_⟩
  rw [put_then_get id .loopback (fun _ => []) false true fileName past accept
    rest close stored upload ?_ between request reading server download keeps
    final]
  · exact written
  · intro step member other different handle found _
    obtain rfl : other = true := by simpa using different
    rw [closed step member] at found
    cases found

end Examples

end MsmTftp
