import MsmTftp.FilePathLayout
import MsmTftp.ServerLoss
import MsmTftp.SessionFiles

/-!
# A server stays below its root

Every file that a session opens is found by `FilePath` below the root path of
the server.  What a session sends comes from files below the root path.  The
files outside of it are never changed, unless a symbolic link below the root
path leads there.
-/

namespace MsmTftp

open FileStore PathResolution TransitionSystem

section Stores

variable {Session File : Type*} [DecidableEq Session] [DecidableEq File]
  {locate : Bytes → File} {allowed : File → Bool → Prop}
  {session : Session} {opened flushes : Bool}
  {store : Store Session File UInt8}

/-- A session that opens only what it may open leaves the other files as they
are. -/
theorem within_touch (effects : List Effect) (within : store.Within allowed)
    (opens : ∀ path truncates, .openFile path truncates ∈ effects →
      opened = true → allowed (locate path) truncates) :
    (effects.foldl (touch locate session opened flushes) store).Within
        allowed ∧
      ∀ file, (∀ truncated, ¬ allowed file truncated) →
        (effects.foldl (touch locate session opened flushes) store).content
          file = store.content file := by
  induction effects generalizing store with
  | nil => exact ⟨within, fun _ _ => rfl⟩
  | cons effect effects ih =>
      obtain ⟨first, unchanged⟩ :
          (touch locate session opened flushes store effect).Within allowed ∧
            ∀ file, (∀ truncated, ¬ allowed file truncated) →
              (touch locate session opened flushes store effect).content
                file = store.content file := by
        cases effect with
        | openFile path truncates =>
            rw [touch]
            split
            · rename_i succeeds
              have may := opens path truncates (by simp) succeeds
              refine ⟨within.openFile may, fun file forbidden => ?_⟩
              apply Store.content_openFile
              rintro rfl
              exact forbidden truncates may
            · exact ⟨within, fun _ _ => rfl⟩
        | writeFile bytes => exact ⟨within.write bytes, fun _ _ => rfl⟩
        | closeFile =>
            exact ⟨within.close flushes, fun file forbidden =>
              Store.content_close_other (within.spares forbidden session)
                flushes⟩
        | _ => exact ⟨within, fun _ _ => rfl⟩
      obtain ⟨last, same⟩ := ih first fun path truncates member =>
        opens path truncates (List.mem_cons_of_mem effect member)
      exact ⟨last, fun file forbidden =>
        (same file forbidden).trans (unchanged file forbidden)⟩

theorem TftpServer.within_step {before after : TftpServer Session File}
    {signal : ServerInput Session} {effects : List Effect}
    (within : before.store.Within allowed)
    (stepped : before.step locate signal = some (after, effects))
    (opens : ∀ session input path truncates, signal = .step session input →
      .openFile path truncates ∈ effects →
        (after.machines session).data.fileStream.isOpen = true →
          allowed (locate path) truncates) :
    after.store.Within allowed ∧
      ∀ file, (∀ truncated, ¬ allowed file truncated) →
        after.store.content file = before.store.content file := by
  cases serverCases stepped with
  | @step session input next _ taken =>
      apply within_touch effects within
      intro path truncates member succeeds
      exact opens session input path truncates rfl member
        (by simpa using succeeds)
  | @drain session count =>
      exact ⟨within.drain count, fun file forbidden =>
        Store.content_drain_other (within.spares forbidden session) count⟩

end Stores

/-- The file is below the root. -/
def FilePath.Below (filePath : FilePath) (file : Option (List Bytes)) : Prop :=
  ∃ location ∈ file, filePath.root <+: location

/-- The files that a session may have open: what is read is below the root,
and so is what is written when no symbolic link leads out of it. -/
def FilePath.MayOpen (filePath : FilePath) (layout : FileSystem)
    (file : Option (List Bytes)) (truncated : Bool) : Prop :=
  truncated = false ∨ layout.Sealed filePath.root → filePath.Below file

section Confinement

variable {Session : Type*}

/-- The paths of requested files are those that `FilePath` finds, and what is
opened is no directory. -/
structure ServerStep.Answered (filePath : FilePath) (layout : FileSystem)
    (step : ServerStep Session (Option (List Bytes))) : Prop where
  paths : ∀ session row environment request,
    step.input = .step session (.fire row environment) →
      .process (.requestReceived request) ∈
          (step.before.machines session).tasks →
        ∃ system, layout.SameLayout system ∧
          environment.readFilePath filePath.rootPath request.fileName =
            filePath.getReadFilePath system request.fileName ∧
          environment.writeFilePath filePath.rootPath request.fileName =
            filePath.getWriteFilePath system request.fileName
  opens : ∀ session input path truncates,
    step.input = .step session input →
      .openFile path truncates ∈ step.outputs →
        (step.after.machines session).data.fileStream.isOpen = true →
          ∃ location, layout.openedForWriting path = some location ∧
            layout.node location ≠ some .directory

/-- The root of a server in the layout it was started in. -/
structure FilePath.Rooted (filePath : FilePath) (layout : FileSystem)
    (config : Config) : Prop where
  rooted : config.rootPath = filePath.rootPath
  set : ∃ rootPath, setServerRootPath layout rootPath = some filePath
  directory : layout.node filePath.root = some .directory

variable {filePath : FilePath} {layout : FileSystem} {config : Config}
  {files : Option (List Bytes) → Bytes} [DecidableEq Session]
  {history : List (ServerStep Session (Option (List Bytes)))}
  {before after server : TftpServer Session (Option (List Bytes))}
  {signal : ServerInput Session} {effects : List Effect}

theorem ServerStep.Answered.exists_found
    (rooted : filePath.Rooted layout config)
    (answered : ServerStep.Answered filePath layout
      ⟨before, signal, effects, after⟩)
    (wellFormed : before.WellFormed config)
    (named : ∀ session, (before.machines session).Named)
    (stepped : before.step layout.openedForWriting signal =
      some (after, effects))
    {session : Session} {input : Input} {path : Bytes} {truncates : Bool}
    (taken : signal = .step session input)
    (member : .openFile path truncates ∈ effects)
    (succeeds : (after.machines session).data.fileStream.isOpen = true) :
    ∃ request, (before.machines session).tasks =
        [.process (.requestReceived request)] ∧
      ∃ location, layout.openedForWriting path = some location ∧
        filePath.Opens layout request.fileName truncates location := by
  subst taken
  obtain ⟨location, opened, file⟩ :=
    answered.opens session input path truncates rfl member succeeds
  cases serverCases stepped with
  | step own =>
      obtain ⟨row, environment, request, rfl, requested, found⟩ :=
        (wellFormed.machines session).exists_request own member
      have member := List.mem_singleton_self
        (Task.process (.requestReceived request))
      rw [← requested] at member
      obtain ⟨system, same, reads, writes⟩ :=
        answered.paths session row environment request rfl member
      obtain ⟨rootPath, set⟩ := rooted.set
      refine ⟨request, requested, location, opened, system, path, same,
        FilePath.set_of_sameLayout set rooted.directory same,
        named session request member, ?_,
        (same.openedForWriting_eq path).trans opened,
        fun isDirectory => file ((same.tree.directory _).mpr isDirectory)⟩
      rw [rooted.rooted] at found
      cases truncates with
      | false => exact reads.symm.trans found
      | true => exact writes.symm.trans found

theorem ServerStep.Answered.mayOpen (rooted : filePath.Rooted layout config)
    (answered : ServerStep.Answered filePath layout
      ⟨before, signal, effects, after⟩)
    (wellFormed : before.WellFormed config)
    (named : ∀ session, (before.machines session).Named)
    (stepped : before.step layout.openedForWriting signal =
      some (after, effects))
    {session : Session} {input : Input} {path : Bytes} {truncates : Bool}
    (taken : signal = .step session input)
    (member : .openFile path truncates ∈ effects)
    (succeeds : (after.machines session).data.fileStream.isOpen = true) :
    filePath.MayOpen layout (layout.openedForWriting path) truncates := by
  obtain ⟨request, _, location, opened, opens⟩ :=
    answered.exists_found rooted wellFormed named stepped taken member
      succeeds
  intro allowed
  exact ⟨location, opened, opens.below allowed⟩

/-- The invariant of a server that stays below its root. -/
structure Confined (filePath : FilePath) (layout : FileSystem)
    (config : Config) (files : Option (List Bytes) → Bytes)
    (server : TftpServer Session (Option (List Bytes))) : Prop where
  wellFormed : server.WellFormed config
  named : ∀ session, (server.machines session).Named
  within : server.store.Within (filePath.MayOpen layout)
  outside : ∀ file, (∀ truncated, ¬ filePath.MayOpen layout file truncated) →
    server.store.content file = files file

theorem Confined.step (rooted : filePath.Rooted layout config)
    (confined : Confined filePath layout config files before)
    (answered : ServerStep.Answered filePath layout
      ⟨before, signal, effects, after⟩)
    (stepped : before.step layout.openedForWriting signal =
      some (after, effects)) :
    Confined filePath layout config files after := by
  obtain ⟨wellFormed, named, within, outside⟩ := confined
  obtain ⟨within, unchanged⟩ := TftpServer.within_step within stepped
    fun session input path truncates taken member succeeds =>
      answered.mayOpen rooted wellFormed named stepped taken member succeeds
  refine ⟨wellFormed.step stepped, ?_, within, fun file forbidden =>
    (unchanged file forbidden).trans (outside file forbidden)⟩
  intro other
  cases serverCases stepped with
  | @step session input next _ taken =>
      by_cases same : other = session
      · subst same
        simp only [Function.update_self]
        exact (named other).step taken
      · simp only [Function.update_of_ne same]
        exact named other
  | drain => exact named other

theorem Confined.of_run (rooted : filePath.Rooted layout config)
    (run : TftpServer.Reaches layout.openedForWriting config files history
      server)
    (answered : ∀ step ∈ history, ServerStep.Answered filePath layout step) :
    Confined filePath layout config files server := by
  refine System.Run.invariant_of run _ answered
    (Confined filePath layout config files) ?_ ?_
  · refine ⟨TftpServer.started_wellFormed config files, ?_, ?_,
      fun file forbidden => rfl⟩
    · intro session request member
      cases member
    · intro session handle found
      cases found
  · intro step confined admitted answered
    exact confined.step rooted answered admitted

/-- The step opens a file for a request with a name. -/
def ServerStep.OpensFor (step : ServerStep Session (Option (List Bytes)))
    (name : Bytes) (file : Option (List Bytes)) : Prop :=
  ∃ session input request path truncates, step.input = .step session input ∧
    .process (.requestReceived request) ∈
        (step.before.machines session).tasks ∧
      request.fileName = name ∧ .openFile path truncates ∈ step.outputs ∧
        ∃ handle ∈ step.after.store.handles session, handle.file = file

theorem handle_of_openFile {File : Type*} [DecidableEq File]
    {locate : Bytes → File} {store : Store Session File UInt8}
    {session : Session} {flushes : Bool} {machine next : Machine}
    {input : Input} {path : Bytes} {truncates : Bool}
    {handle : Handle File UInt8}
    (fits : SessionFits machine (store.handles session))
    (wellFormed : machine.WellFormed config)
    (stepped : machine.step input = some (next, effects))
    (opens : .openFile path truncates ∈ effects)
    (found : handle ∈ (effects.foldl (touch locate session
      next.data.fileStream.isOpen flushes) store).handles session) :
    next.data.fileStream.isOpen = true ∧ handle.file = locate path := by
  have touching : .openFile path truncates ∈
      effects.filter Effect.touchesFile :=
    List.mem_filter.mpr ⟨opens, rfl⟩
  rw [foldl_touch] at found
  cases wellFormed.fileCases stepped with
  | keeps touches => simp [touches] at touching
  | opens touches accepts =>
      rw [touches] at touching found
      obtain ⟨rfl, rfl⟩ :=
        Effect.openFile.inj (List.mem_singleton.mp touching)
      simp only [List.foldl_cons, List.foldl_nil, touch] at found
      split at found
      · rename_i succeeds
        rw [Store.handles_openFile, Option.mem_some_iff] at found
        exact ⟨succeeds, by rw [← found]⟩
      · rw [fits.closed accepts] at found
        cases found
  | writes touches => simp [touches] at touching
  | closes touches => simp [touches] at touching

theorem Confined.opens (rooted : filePath.Rooted layout config)
    (confined : Confined filePath layout config files before)
    (answered : ServerStep.Answered filePath layout
      ⟨before, signal, effects, after⟩)
    (stepped : before.step layout.openedForWriting signal =
      some (after, effects))
    {name : Bytes} {file : Option (List Bytes)}
    (opens : ServerStep.OpensFor ⟨before, signal, effects, after⟩ name file) :
    ∃ truncates location, file = some location ∧
      filePath.Opens layout name truncates location := by
  obtain ⟨session, input, request, path, truncates, taken, requested, rfl,
    member, handle, found, rfl⟩ := opens
  have taken : signal = .step session input := taken
  obtain ⟨succeeds, opened⟩ :
      (after.machines session).data.fileStream.isOpen = true ∧
        handle.file = layout.openedForWriting path := by
    subst taken
    cases serverCases stepped with
    | @step _ _ next _ own =>
        simp only [Function.update_self]
        exact handle_of_openFile (confined.wellFormed.fits session)
          (confined.wellFormed.machines session) own member found
  obtain ⟨other, tasks, location, leads, opens⟩ :=
    answered.exists_found rooted confined.wellFormed confined.named stepped
      taken member succeeds
  have requested : .process (.requestReceived request) ∈
      (before.machines session).tasks := requested
  rw [tasks, List.mem_singleton] at requested
  obtain rfl := Event.requestReceived.inj (Task.process.inj requested)
  exact ⟨truncates, location, opened.trans leads, opens⟩

end Confinement

section Reading

variable {Session File : Type*}

/-- What is read for a session is in the file that the session has open. -/
def ServerStep.ReadsOpenFile (step : ServerStep Session File) : Prop :=
  ∀ session row environment, step.input = .step session (.fire row environment) →
    row.action = .formDataPacket →
      ∀ handle ∈ step.before.store.handles session,
        environment.content = step.before.store.content handle.file

/-- The step reads the payload of the packet for a session: nothing, or a part
of the file below the root that the session has open. -/
structure ServerStep.ReadsBelow [DecidableEq Session] (filePath : FilePath)
    (session : Session) (packet : Bytes)
    (step : ServerStep Session (Option (List Bytes))) : Prop where
  forms : step.fires session .formDataPacket = true
  payload : Packet.payload packet = [] ∨
    ∃ handle ∈ step.before.store.handles session, ∃ location,
      handle.file = some location ∧ filePath.root <+: location ∧
        Packet.payload packet <:+: step.before.store.content (some location)

/-- A session reads from an open file only, and not from one that it
writes. -/
structure SessionReads (machine : Machine)
    (handle : Option (Handle File UInt8)) : Prop where
  isOpen : machine.data.fileStream.readable = true →
    machine.data.fileStream.isOpen = true
  writes : ∀ current ∈ handle, current.truncated = true →
    machine.data.fileStream.readable = false

variable [DecidableEq Session] [DecidableEq File]
  {locate : Bytes → File} {config : Config} {session other : Session}
  {store : Store Session File UInt8} {opened flushes : Bool}
  {machine next : Machine} {input : Input} {effects : List Effect}
  {before after : TftpServer Session File} {signal : ServerInput Session}

theorem SessionReads.step
    (reads : SessionReads machine (store.handles session))
    (fits : SessionFits machine (store.handles session))
    (wellFormed : machine.WellFormed config)
    (stepped : machine.step input = some (next, effects)) :
    SessionReads next ((effects.foldl (touch locate session
      next.data.fileStream.isOpen flushes) store).handles session) := by
  have grown := wellFormed.readable_step stepped reads.isOpen
  refine ⟨fun readable => (grown readable).1, ?_⟩
  intro current found truncated
  by_contra readable
  rw [Bool.not_eq_false] at readable
  rw [foldl_touch] at found
  -- A session that has a file open cannot open another one.
  have held (handle : Handle File UInt8)
      (here : handle ∈ store.handles session)
      (writing : handle.truncated = true) : False := by
    rcases (grown readable).2 with before | ⟨accepts, _⟩
    · rw [reads.writes handle here writing] at before
      cases before
    · rw [fits.closed accepts] at here
      cases here
  cases wellFormed.fileCases stepped with
  | keeps touches stream ends =>
      rw [touches] at found
      exact held current found truncated
  | @opens path truncates touches accepts fires served =>
      have closed := fits.closed accepts
      rw [touches] at found
      simp only [List.foldl_cons, List.foldl_nil, touch] at found
      split at found
      · rw [Store.handles_openFile, Option.mem_some_iff] at found
        subst found
        obtain rfl : truncates = true := truncated
        rcases (grown readable).2 with before | ⟨_, fires'⟩
        · have isOpen := fits.isOpen
          rw [closed, reads.isOpen before] at isOpen
          cases isOpen
        · obtain ⟨row, environment, taken, serves⟩ := fires
          obtain ⟨other, _, same, reading⟩ := fires'
          obtain ⟨rfl, _⟩ := Input.fire.inj (taken.symm.trans same)
          simp [serves] at reading
      · rw [closed] at found
        cases found
  | writes touches waits fires lands stream =>
      rw [touches] at found
      simp only [List.foldl_cons, List.foldl_nil, touch, Store.handles_write,
        Option.mem_def, Option.map_eq_some_iff] at found
      obtain ⟨handle, here, rfl⟩ := found
      exact held handle here truncated
  | closes touches resets stream =>
      rw [touches] at found
      simp only [List.foldl_cons, List.foldl_nil, touch,
        Store.handles_close] at found
      cases found

theorem SessionReads.drain
    (reads : SessionReads machine (store.handles other)) (count : Nat) :
    SessionReads machine ((store.drain 0 session count).handles other) := by
  by_cases same : other = session
  · subst same
    cases found : store.handles other with
    | none =>
        rw [Store.drain_of_closed found]
        exact reads
    | some current =>
        rw [Store.handles_drain found]
        refine ⟨reads.isOpen, ?_⟩
        intro drained member truncated
        obtain rfl := Option.some.inj member
        exact reads.writes current found truncated
  · rw [Store.handles_drain_other same]
    exact reads

/-- In every server that was started, sessions read from the files they have
open for reading only. -/
theorem TftpServer.Reaches.sessionReads {files : File → Bytes}
    {history : List (ServerStep Session File)}
    {server : TftpServer Session File}
    (run : TftpServer.Reaches locate config files history server)
    (session : Session) :
    SessionReads (server.machines session) (server.store.handles session) := by
  have invariant := System.Run.invariant run
    (fun server => server.WellFormed config ∧ ∀ session,
      SessionReads (server.machines session) (server.store.handles session))
    ⟨TftpServer.started_wellFormed config files, fun session =>
      ⟨by simp [TftpServer.started, Machine.started, State.entry,
        enterAccepting, SessionData.fresh], by simp [TftpServer.started]⟩⟩ ?_
  · exact invariant.2 session
  · rintro ⟨before, signal, effects, after⟩ ⟨wellFormed, reads⟩ admitted
    have stepped : before.step locate signal = some (after, effects) :=
      admitted
    refine ⟨wellFormed.step stepped, fun other => ?_⟩
    cases serverCases stepped with
    | @step session input next _ taken =>
        by_cases same : other = session
        · subst same
          simp only [Function.update_self]
          exact (reads other).step (wellFormed.fits other)
            (wellFormed.machines other) taken
        · simp only [Function.update_of_ne same, handles_touch_other same]
          exact reads other
    | @drain session count => exact (reads other).drain count

/-- A packet that a server sends was formed by a step of the session that
sends it. -/
theorem TftpServer.Reaches.exists_formed {files : File → Bytes}
    {past : List (ServerStep Session File)} {step : ServerStep Session File}
    {server : TftpServer Session File} {packet : Bytes} {receiver : Endpoint}
    (run : TftpServer.Reaches locate config files (past ++ [step]) server)
    (sent : .sendTo packet receiver ∈ step.outputs) :
    ∃ own input, step.input = .step own input ∧
      ∃ formed ∈ sessionHistory own (past ++ [step]),
        Step.formed formed = some packet := by
  obtain ⟨before, signal, effects, after⟩ := step
  have stepped : before.step locate signal = some (after, effects) :=
    (System.run_concat.mp run).2.1
  cases signal with
  | drain =>
      cases serverCases stepped with
      | drain => cases sent
  | step own input =>
      have reached := run.reaches own
      rw [sessionHistory_own] at reached
      obtain ⟨formed, member, same⟩ := reached.exists_formed sent
      rw [← sessionHistory_own] at member
      exact ⟨own, input, rfl, formed, member, same⟩

/-- The block that a session of a confined server reads is part of the file
below the root that it has open. -/
theorem Confined.readsBelow {filePath : FilePath} {layout : FileSystem}
    {files : Option (List Bytes) → Bytes} {packet : Bytes}
    {before after : TftpServer Session (Option (List Bytes))}
    (confined : Confined filePath layout config files before)
    (reads : SessionReads (before.machines session)
      (before.store.handles session))
    (moved : (before.machines session).step input = some (next, effects))
    (formed : Step.formed ⟨before.machines session, input, effects, next⟩ =
      some packet)
    (opcode : Packet.opCode packet = .data)
    (reading : ServerStep.ReadsOpenFile
      ⟨before, .step session input, effects, after⟩) :
    ServerStep.ReadsBelow filePath session packet
      ⟨before, .step session input, effects, after⟩ := by
  obtain ⟨row, environment, rfl, forms, nothing | ⟨readable, block⟩⟩ :=
    payload_of_formed (confined.wellFormed.machines session) moved formed
      opcode
  · exact ⟨fires_step.mpr ⟨rfl, row, environment, rfl, forms⟩, .inl nothing⟩
  · refine ⟨fires_step.mpr ⟨rfl, row, environment, rfl, forms⟩, .inr ?_⟩
    have isOpen := (confined.wellFormed.fits session).isOpen
    rw [reads.isOpen readable, Option.isSome_iff_exists] at isOpen
    obtain ⟨handle, found⟩ := isOpen
    have reader : handle.truncated = false := by
      by_contra writes
      rw [Bool.not_eq_false] at writes
      rw [reads.writes handle found writes] at readable
      cases readable
    obtain ⟨location, file, below⟩ :=
      confined.within session handle found (.inl reader)
    have file : handle.file = some location := file
    refine ⟨handle, found, location, file, below, ?_⟩
    rw [← file, ← reading session row environment rfl forms handle found]
    exact block

end Reading

section Examples

/-- A directory of the server in which a symbolic link leads to another file
of the server, and a file elsewhere. -/
def linkEntries : List (List Bytes × Node Bytes Bytes) :=
  [([], .directory),
    ([[114]], .directory),
    ([[114], [100]], .directory),
    ([[114], [100], [103]], .file [1]),
    ([[114], [102]], .link (Pathname.route [100, 47, 103])),
    ([[111]], .file [2])]

def linkInside : FileSystem :=
  .ofEntries linkEntries (by decide) (by decide) (by decide) 40

def rootOfLink : FilePath :=
  ⟨[47, 114]⟩

private def configOfLink : Config :=
  { Config.loopback with rootPath := [47, 114] }

private def filesOfLink (file : Option (List Bytes)) : Bytes :=
  match file.bind linkInside.node with
  | some (.file data) => data
  | _ => []

private theorem rooted_linkInside :
    rootOfLink.Rooted linkInside configOfLink :=
  ⟨rfl, ⟨[47, 114], by rfl⟩, by rfl⟩

/-- What the operating system answers for these files. -/
private def answersOfLink : Environment where
  readFilePath root name := (FilePath.mk root).getReadFilePath linkInside name
  writeFilePath root name :=
    (FilePath.mk root).getWriteFilePath linkInside name
  content := [1]

private def requestedOk (environment : Environment) : Task → Bool
  | .process (.requestReceived request) =>
      environment.readFilePath [47, 114] request.fileName ==
          rootOfLink.getReadFilePath linkInside request.fileName &&
        environment.writeFilePath [47, 114] request.fileName ==
          rootOfLink.getWriteFilePath linkInside request.fileName
  | _ => true

private def openedOk : Effect → Bool
  | .openFile path _ =>
      (linkInside.openedForWriting path).any fun location =>
        linkInside.node location != some .directory
  | _ => true

private def stepOk (step : ServerStep Bool (Option (List Bytes))) : Bool :=
  step.outputs.all openedOk &&
    match step.input with
    | .step session (.fire row environment) =>
        (step.before.machines session).tasks.all (requestedOk environment) &&
          (row.action != .formDataPacket ||
            (step.before.store.handles session).all fun handle =>
              environment.content == step.before.store.content handle.file)
    | _ => true

private theorem of_stepOk {step : ServerStep Bool (Option (List Bytes))}
    (passes : stepOk step = true) :
    ServerStep.Answered rootOfLink linkInside step ∧
      ServerStep.ReadsOpenFile step := by
  simp only [stepOk, Bool.and_eq_true, List.all_eq_true] at passes
  obtain ⟨opened, fires⟩ := passes
  refine ⟨⟨?_, ?_⟩, ?_⟩
  · intro session row environment request taken member
    rw [taken] at fires
    simp only [Bool.and_eq_true, List.all_eq_true] at fires
    have found := fires.1 _ member
    simp only [requestedOk, Bool.and_eq_true, beq_iff_eq] at found
    exact ⟨linkInside, ⟨⟨fun _ => .rfl, fun _ _ => .rfl⟩, rfl, rfl⟩,
      found.1, found.2⟩
  · intro session input path truncates taken member _
    have leads := opened _ member
    simp only [openedOk, Option.any_eq_true, bne_iff_ne] at leads
    exact leads
  · intro session row environment taken forms handle found
    rw [taken] at fires
    simp only [Bool.and_eq_true, Bool.or_eq_true, bne_iff_ne, forms, ne_eq,
      not_true_eq_false, false_or, Option.all_eq_true, beq_iff_eq] at fires
    exact fires.2 handle found

private theorem exists_answered
    (requests : List (ServerInput Bool × Environment))
    (check : List (ServerStep Bool (Option (List Bytes))) → Bool)
    (checked : (tftpServer linkInside.openedForWriting).executesTo 7
      (TftpServer.script requests)
      (fun history _ => history.all stepOk && check history)
      (TftpServer.started configOfLink filesOfLink) = true) :
    ∃ history server,
      TftpServer.Reaches linkInside.openedForWriting configOfLink filesOfLink
        (history : List (ServerStep Bool (Option (List Bytes)))) server ∧
      (∀ step ∈ history, ServerStep.Answered rootOfLink linkInside step) ∧
      (∀ step ∈ history, ServerStep.ReadsOpenFile step) ∧
        check history = true := by
  obtain ⟨history, server, run, passes⟩ :=
    System.exists_run_of_executesTo checked
  simp only [Bool.and_eq_true, List.all_eq_true] at passes
  exact ⟨history, server, run, fun step member =>
    (of_stepOk (passes.1 step member)).1, fun step member =>
      (of_stepOk (passes.1 step member)).2, passes.2⟩

private def requestBy (session : Bool) (opcode : OpCode) :
    ServerInput Bool × Environment :=
  (.step session (.complete (.accepted .client (requestOf opcode))),
    answersOfLink)

end Examples

/-- All requests with one file name open one file, whichever sessions serve
them and whatever the symbolic links on the way: what was put under a name is
what a later request for the name gets. -/
theorem one_file_for_name {Session : Type*} [DecidableEq Session]
    (filePath : FilePath) (layout : FileSystem) (config : Config)
    (rooted : filePath.Rooted layout config)
    (files : Option (List Bytes) → Bytes)
    (history : List (ServerStep Session (Option (List Bytes))))
    (server : TftpServer Session (Option (List Bytes)))
    (run : TftpServer.Reaches layout.openedForWriting config files history
      server)
    (answered : ∀ step ∈ history, ServerStep.Answered filePath layout step)
    (name : Bytes)
    (first second : ServerStep Session (Option (List Bytes)))
    (inside : first ∈ history) (insideToo : second ∈ history)
    (file other : Option (List Bytes))
    (opens : ServerStep.OpensFor first name file)
    (opensOther : ServerStep.OpensFor second name other) : file = other := by
  have leads (step : ServerStep Session (Option (List Bytes)))
      (member : step ∈ history) (file : Option (List Bytes))
      (opens : ServerStep.OpensFor step name file) :
      ∃ truncates location, file = some location ∧
        filePath.Opens layout name truncates location := by
    obtain ⟨earlier, later, rfl⟩ := List.append_of_mem member
    obtain ⟨reached, admitted, _⟩ := System.run_split.mp run
    have confined := Confined.of_run rooted reached fun step member =>
      answered step (List.mem_append_left _ member)
    exact confined.opens rooted (answered step member) admitted opens
  obtain ⟨_, location, rfl, found⟩ := leads first inside file opens
  obtain ⟨_, elsewhere, rfl, foundOther⟩ :=
    leads second insideToo other opensOther
  rw [found.unique foundOther]

private def opensName (session : Bool) (action : Action)
    (step : ServerStep Bool (Option (List Bytes))) : Bool :=
  step.fires session action &&
    match step.input with
    | .step other _ =>
        (step.before.machines other).tasks.any (fun
            | .process (.requestReceived request) =>
                request.fileName == [102]
            | _ => false) &&
          step.outputs.any (fun
            | .openFile _ _ => true
            | _ => false) &&
          (step.after.store.handles other).isSome
    | _ => false

private theorem exists_opensFor {session : Bool} {action : Action}
    {step : ServerStep Bool (Option (List Bytes))}
    (opens : opensName session action step = true) :
    step.fires session action = true ∧
      ∃ file, ServerStep.OpensFor step [102] file := by
  simp only [opensName, Bool.and_eq_true] at opens
  obtain ⟨fires, opens⟩ := opens
  refine ⟨fires, ?_⟩
  split at opens
  · rename_i own input taken
    simp only [Bool.and_eq_true, List.any_eq_true,
      Option.isSome_iff_exists] at opens
    obtain ⟨⟨⟨task, held, named⟩, effect, member, opened⟩, handle, found⟩ :=
      opens
    split at named
    · split at opened
      · exact ⟨handle.file, own, input, _, _, _, taken, held,
          beq_iff_eq.mp named, member, handle, found, rfl⟩
      · cases opened
    · cases named
  · cases opens

/-- An upload and a download over the symbolic link open one file. -/
theorem link_opened_twice :
    ∃ (history : List (ServerStep Bool (Option (List Bytes))))
      (first second : ServerStep Bool (Option (List Bytes))),
      first ∈ history ∧ second ∈ history ∧
        first.fires false .initServeWriteRequest = true ∧
          second.fires true .initServeReadRequest = true ∧
            ∃ file, ServerStep.OpensFor first [102] file ∧
              ServerStep.OpensFor second [102] file := by
  obtain ⟨history, server, run, answered, _, passes⟩ :=
    exists_answered [requestBy false .writeRequest, requestBy true .readRequest]
      (fun history => history.any (opensName false .initServeWriteRequest) &&
        history.any (opensName true .initServeReadRequest))
      (by decide +kernel)
  simp only [Bool.and_eq_true, List.any_eq_true] at passes
  obtain ⟨⟨first, inside, opens⟩, second, insideToo, opensOther⟩ := passes
  obtain ⟨writes, file, opens⟩ := exists_opensFor opens
  obtain ⟨reads, other, opensOther⟩ := exists_opensFor opensOther
  have same := one_file_for_name rootOfLink linkInside configOfLink
    rooted_linkInside filesOfLink history server run answered [102] first
    second inside insideToo file other opens opensOther
  rw [← same] at opensOther
  exact ⟨history, first, second, inside, insideToo, writes, reads, file, opens,
    opensOther⟩

/-- What a server sends to anybody is in a file below its root path: the
session that sends a DATA packet read its payload, in this step or an earlier
one, from a file below the root that it had open then. -/
theorem sent_data_below_root {Session : Type*} [DecidableEq Session]
    (filePath : FilePath) (layout : FileSystem) (config : Config)
    (rooted : filePath.Rooted layout config)
    (files : Option (List Bytes) → Bytes)
    (past : List (ServerStep Session (Option (List Bytes))))
    (step : ServerStep Session (Option (List Bytes)))
    (server : TftpServer Session (Option (List Bytes)))
    (run : TftpServer.Reaches layout.openedForWriting config files
      (past ++ [step]) server)
    (answered : ∀ earlier ∈ past ++ [step],
      ServerStep.Answered filePath layout earlier)
    (reads : ∀ earlier ∈ past ++ [step], ServerStep.ReadsOpenFile earlier)
    (packet : Bytes) (receiver : Endpoint)
    (sent : .sendTo packet receiver ∈ step.outputs)
    (opcode : Packet.opCode packet = .data) :
    ∃ session input, step.input = .step session input ∧
      ∃ earlier ∈ past ++ [step],
        ServerStep.ReadsBelow filePath session packet earlier := by
  obtain ⟨own, input, sends, formed, member, same⟩ :=
    TftpServer.Reaches.exists_formed run sent
  refine ⟨own, input, sends, ?_⟩
  obtain ⟨whole, inside, projected⟩ := List.mem_filterMap.mp member
  obtain ⟨signal, taken, rfl⟩ := Option.map_eq_some_iff.mp projected
  obtain ⟨earlier, later, split⟩ := List.append_of_mem inside
  rw [split] at run answered
  obtain ⟨reached, admitted, _⟩ := System.run_split.mp run
  have confined := Confined.of_run rooted reached fun step member =>
    answered step (List.mem_append_left _ member)
  refine ⟨whole, inside, ?_⟩
  have reading := reads whole inside
  obtain ⟨before, moves, effects, after⟩ := whole
  have stepped : before.step layout.openedForWriting moves =
      some (after, effects) := admitted
  cases moves with
  | drain => cases taken
  | step session signal =>
      simp only [ServerInput.of?, Option.ite_none_right_eq_some,
        Option.some.injEq] at taken
      obtain ⟨rfl, rfl⟩ := taken
      cases serverCases stepped with
      | @step _ _ next _ moved =>
          exact confined.readsBelow
            (TftpServer.Reaches.sessionReads reached session) moved
            (by simpa [Function.update_self] using same) opcode reading

/-- The file behind the symbolic link is sent. -/
theorem link_sent_from_root :
    ∃ (past : List (ServerStep Bool (Option (List Bytes))))
      (step : ServerStep Bool (Option (List Bytes))) (packet : Bytes),
      .sendTo packet .client ∈ step.outputs ∧
        Packet.payload packet = [1] ∧
          ∃ session input, step.input = .step session input ∧
            ∃ earlier ∈ past ++ [step],
              ServerStep.ReadsBelow rootOfLink session packet earlier := by
  obtain ⟨history, server, run, answered, reads, passes⟩ :=
    exists_answered
      [requestBy true .readRequest, (.drain true 0, answersOfLink)]
      (fun history => history.getLast?.any fun step =>
        (step.outputs.filterMap Effect.packet).any fun sent =>
          sent.2 == .client && Packet.opCode sent.1 == .data &&
            Packet.payload sent.1 == [1])
      (by decide +kernel)
  obtain ⟨step, last, sends⟩ := (Option.any_eq_true _ _).mp passes
  obtain ⟨past, rfl⟩ := List.getLast?_eq_some_iff.mp last
  obtain ⟨⟨packet, receiver⟩, found, carries⟩ := List.any_eq_true.mp sends
  simp only [Bool.and_eq_true, beq_iff_eq] at carries
  obtain ⟨⟨rfl, opcode⟩, payload⟩ := carries
  have sent : .sendTo packet .client ∈ step.outputs :=
    mem_filterMap_packet.mp found
  exact ⟨past, step, packet, sent, payload,
    sent_data_below_root rootOfLink linkInside configOfLink rooted_linkInside
      filesOfLink past step server run answered reads packet .client sent
      opcode⟩

/-- No run of a server changes a file outside of its root, when no symbolic
link below the root leads out of it: all files that are open are below it, and
the others stay as they were. -/
theorem outside_unchanged {Session : Type*} [DecidableEq Session]
    (filePath : FilePath) (layout : FileSystem) (config : Config)
    (rooted : filePath.Rooted layout config)
    (isSealed : layout.Sealed filePath.root)
    (files : Option (List Bytes) → Bytes)
    (history : List (ServerStep Session (Option (List Bytes))))
    (server : TftpServer Session (Option (List Bytes)))
    (run : TftpServer.Reaches layout.openedForWriting config files history
      server)
    (answered : ∀ step ∈ history,
      ServerStep.Answered filePath layout step) :
    (∀ session, ∀ handle ∈ server.store.handles session,
      filePath.Below handle.file) ∧
      ∀ file, ¬ filePath.Below file →
        server.store.content file = files file := by
  have confined := Confined.of_run rooted run answered
  constructor
  · intro session handle found
    exact confined.within session handle found (.inr isSealed)
  · intro file outside
    apply confined.outside file
    intro truncated allowed
    exact outside (allowed (.inr isSealed))

private def isInnerLink (entry : List Bytes × Node Bytes Bytes) : Bool :=
  match linkInside.node entry.1 with
  | some (.link target) =>
      entry.1 == [[114], [102]] && target == Pathname.route [100, 47, 103]
  | _ => true

private theorem linkInside_sealed : linkInside.Sealed rootOfLink.root := by
  intro directory name target inside found links bound location resolves
  obtain ⟨node, member⟩ := Tree.mem_of_lookup
    (Option.ne_none_iff_exists'.mpr ⟨_, found⟩)
  have inner : isInnerLink (directory ++ [name], node) = true :=
    List.all_eq_true.mp (by decide +kernel :
      linkEntries.all isInnerLink = true) _ member
  simp only [isInnerLink, found, Bool.and_eq_true, beq_iff_eq] at inner
  obtain ⟨place, rfl⟩ := inner
  obtain rfl : directory = [[114]] := by
    simpa using congrArg List.dropLast place
  obtain ⟨_, _, leads⟩ := Tree.resolve_eq_some_iff.mp (by rfl :
    linkInside.resolve true 0
      ((Pathname.route [100, 47, 103]).start [[114]])
        (Pathname.route [100, 47, 103]).elements =
          some [[114], [100], [103]])
  rw [← leads.unique resolves]
  decide

/-- A write request opens the file behind the symbolic link, and the file
elsewhere stays as it was. -/
theorem file_elsewhere_unchanged :
    ∃ (history : List (ServerStep Bool (Option (List Bytes))))
      (server : TftpServer Bool (Option (List Bytes))),
      (∃ step ∈ history, step.fires false .initServeWriteRequest = true ∧
        ∃ file, ServerStep.OpensFor step [102] file) ∧
        server.store.content (some [[111]]) = [2] := by
  obtain ⟨history, server, run, answered, _, passes⟩ :=
    exists_answered [requestBy false .writeRequest]
      (fun history => history.any (opensName false .initServeWriteRequest))
      (by decide +kernel)
  obtain ⟨step, member, opens⟩ := List.any_eq_true.mp passes
  refine ⟨history, server, ⟨step, member, exists_opensFor opens⟩, ?_⟩
  rw [(outside_unchanged rootOfLink linkInside configOfLink rooted_linkInside
    linkInside_sealed filesOfLink history server run answered).2]
  · rfl
  · rintro ⟨location, here, below⟩
    obtain rfl := Option.some.inj here
    exact absurd below (by decide)

end MsmTftp
