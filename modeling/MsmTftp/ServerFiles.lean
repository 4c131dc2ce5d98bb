import MsmTftp.FileStore
import MsmTftp.SessionRole

/-!
# Sessions of one server that share its files

A server runs several sessions below one root path.  Every session has its own
file stream, and nothing keeps two of them from opening the same file: a write
request that is served while an upload to the same file goes on empties the
file.  An upload to a file that no other session has open for writing leaves
the blocks it wrote, whatever the other sessions do.
-/

namespace MsmTftp

open CellBuffer FileStore TransitionSystem

/-- The sessions of a server and the files their streams have open. -/
structure TftpServer (Session File : Type*) where
  machines : Session → Machine
  store : Store Session File UInt8

/-- The inputs of a server. -/
inductive ServerInput (Session : Type*)
  /-- A session takes a step. -/
  | step (session : Session) (input : Input)
  /-- The stream of a session writes out some of the bytes it took. -/
  | drain (session : Session) (count : Nat)

/-- Closing the stream flushes it. -/
def Input.flushes : Input → Bool
  | fire _ environment => environment.flushes
  | _ => true

section Model

variable {Session File : Type*} [DecidableEq Session] [DecidableEq File]

/-- What an effect of a session does to the files, where `opened` tells
whether an open succeeded.  Two paths are the same file when `locate` says
so. -/
def touch (locate : Bytes → File) (session : Session)
    (opened flushes : Bool) (store : Store Session File UInt8) :
    Effect → Store Session File UInt8
  | .openFile path truncate =>
      if opened then store.openFile session (locate path) truncate
      else store
  | .writeFile bytes => store.write session bytes
  | .closeFile => store.close 0 session flushes
  | _ => store

namespace TftpServer

/-- What a read delivers is left to the environment of the step. -/
def step (locate : Bytes → File) (server : TftpServer Session File) :
    ServerInput Session → Option (TftpServer Session File × List Effect)
  | .step session input =>
      ((server.machines session).step input).map fun next =>
        ({ machines := Function.update server.machines session next.1
           store := next.2.foldl
            (touch locate session next.1.data.fileStream.isOpen
              input.flushes) server.store }, next.2)
  | .drain session count =>
      some ({ server with store := server.store.drain 0 session count }, [])

/-- `TftpServer::Start`. -/
def started (config : Config) (files : File → Bytes) :
    TftpServer Session File where
  machines _ := Machine.started config
  store := { content := files, handles := fun _ => none }

end TftpServer

/-- The transition system of a server. -/
def tftpServer (locate : Bytes → File) :
    System (TftpServer Session File) (ServerInput Session) Effect where
  step := TftpServer.step locate

end Model

abbrev ServerStep (Session File : Type*) :=
  Transition (TftpServer Session File) (ServerInput Session) Effect

section Histories

variable {Session File : Type*}

/-- A file that a session has open for writing is open in no other session. -/
def TftpServer.Exclusive (server : TftpServer Session File) : Prop :=
  ∀ session other, other ≠ session →
    ∀ handle ∈ server.store.handles session, handle.truncated = true →
      ∀ another ∈ server.store.handles other, another.file ≠ handle.file

/-- No other session has the file open for writing. -/
def TftpServer.Alone (server : TftpServer Session File) (session : Session)
    (file : File) : Prop :=
  ∀ other, other ≠ session → ∀ handle ∈ server.store.handles other,
    handle.truncated = true → handle.file ≠ file

variable [DecidableEq Session]

/-- The step of a session that an input of the server is. -/
def ServerInput.of? (session : Session) :
    ServerInput Session → Option Input
  | .step other input => if other = session then some input else none
  | .drain _ _ => none

/-- The steps that one session takes. -/
def sessionHistory (session : Session)
    (history : List (ServerStep Session File)) : List Step :=
  history.filterMap
    (System.project (fun server => server.machines session)
      fun _ input => input.of? session)

/-- The step fires a row of the session with this action. -/
def ServerStep.fires (step : ServerStep Session File) (session : Session)
    (action : Action) : Bool :=
  match step.input.of? session with
  | some (.fire row _) => decide (row.action = action)
  | _ => false

variable [DecidableEq File]

/-- Runs of a server from its start. -/
def TftpServer.Reaches (locate : Bytes → File) (config : Config)
    (files : File → Bytes) (history : List (ServerStep Session File))
    (server : TftpServer Session File) : Prop :=
  (tftpServer locate).Run (TftpServer.started config files) history server

/-- An upload without a failure of its file stream, from the step that opens
the file for a write request to the `Reset` that closes it. -/
structure UploadOf (locate : Bytes → File) (config : Config)
    (files : File → Bytes) (session : Session) (file : File)
    (past : List (ServerStep Session File)) (accept : ServerStep Session File)
    (rest : List (ServerStep Session File)) (close : ServerStep Session File)
    (server : TftpServer Session File) : Prop where
  run : TftpServer.Reaches locate config files
    (past ++ accept :: (rest ++ [close])) server
  accepts : accept.fires session .initServeWriteRequest = true
  opens : ∃ handle ∈ accept.after.store.handles session, handle.file = file
  ongoing : ∀ step ∈ rest, ServerStep.fires step session .reset = false
  writes : ∀ step ∈ rest, ∀ row environment,
    step.input = .step session (.fire row environment) →
      row.action = .writeData → environment.acceptsWrite = true
  closes : ∃ row environment,
    close.input = .step session (.fire row environment) ∧
      row.action = .reset ∧ environment.flushes = true

end Histories

section Streams

variable (stream : FileStream) {data : SessionData}
  {environment : Environment} {event : Option Event} {action : Action}

theorem isOpen_read (content : Bytes) (error : Option Nat) (count : Nat) :
    (stream.read content error count).1.isOpen = stream.isOpen := by
  unfold FileStream.read
  repeat' split
  all_goals rfl

theorem isOpen_write (accepted : Bool) :
    (stream.write accepted).1.isOpen = stream.isOpen := by
  unfold FileStream.write
  repeat' split
  all_goals rfl

theorem isOpen_formDataPacket :
    (formDataPacket environment data).fileStream.isOpen =
      data.fileStream.isOpen := by
  have stream : (formDataPacket environment data).fileStream =
      data.streamAfterRead environment := by
    cases bad : (data.streamAfterRead environment).bad with
    | true => rw [formDataPacket_of_bad bad]
    | false => rw [formDataPacket_of_not_bad bad]
  rw [stream]
  exact isOpen_read _ _ _ _

theorem isOpen_writeData :
    (writeData environment data).1.fileStream.isOpen =
      data.fileStream.isOpen := by
  have stream : (writeData environment data).1.fileStream =
      (data.fileStream.write environment.acceptsWrite).1 := by
    simp only [writeData]
    split <;> rfl
  rw [stream]
  exact isOpen_write _ _

theorem writeData_effects :
    (writeData environment data).2 =
      if (data.fileStream.write environment.acceptsWrite).2 then
        [.writeFile (Packet.payload data.incoming)]
      else [] := by
  simp only [writeData]
  split <;> rfl

/-- What an action does to files: nothing, or it opens, writes or closes the
file of the session. -/
inductive ActionFiles (data acted : SessionData) (effects : List Effect) :
    Action → Prop
  | keeps {action : Action} (touches : effects.filter Effect.touchesFile = [])
      (stream : acted.fileStream.isOpen = data.fileStream.isOpen) :
      ActionFiles data acted effects action
  | opens {path : Bytes} {truncates : Bool}
      (touches : effects.filter Effect.touchesFile =
        [.openFile path truncates]) :
      ActionFiles data acted effects
        (if truncates then .initServeWriteRequest else .initServeReadRequest)
  | writes {bytes : Bytes}
      (touches : effects.filter Effect.touchesFile = [.writeFile bytes])
      (stream : acted.fileStream.isOpen = data.fileStream.isOpen) :
      ActionFiles data acted effects .writeData
  | closes (touches : effects.filter Effect.touchesFile = [.closeFile])
      (stream : acted.fileStream.isOpen = false) :
      ActionFiles data acted effects .reset

theorem initServeReadRequest_files (environment : Environment)
    (request : RequestReceived) (data : SessionData) :
    ActionFiles data (initServeReadRequest environment request data).1
      (initServeReadRequest environment request data).2
      .initServeReadRequest := by
  have effects : (initServeReadRequest environment request data).2 =
      (openReadFile environment request
        (openDataSocket environment data)).2 :=
    rfl
  have stream : (initServeReadRequest environment request
      data).1.fileStream = _ := initServeReadRequest_fileStream
  cases mode : getMode request.mode with
  | none =>
      simp only [openReadFile, mode] at effects stream
      exact .keeps (by rw [effects]; rfl) (by rw [stream]; rfl)
  | some _ =>
      cases found : environment.readFilePath
          (openDataSocket environment data).rootPath request.fileName with
      | none =>
          simp only [openReadFile, mode, found] at effects stream
          exact .keeps (by rw [effects]; rfl) (by rw [stream]; rfl)
      | some path =>
          have touches : (initServeReadRequest environment request
              data).2.filter Effect.touchesFile =
                [.openFile path false] := by
            rw [effects]
            simp only [openReadFile, mode, found]
            rfl
          exact .opens touches

theorem initServeWriteRequest_files (environment : Environment)
    (request : RequestReceived) (data : SessionData) :
    ActionFiles data (initServeWriteRequest environment request data).1
      (initServeWriteRequest environment request data).2
      .initServeWriteRequest := by
  simp only [initServeWriteRequest, openWriteFile]
  split
  · split
    · rename_i path _
      have touches : [Effect.openFile path true].filter Effect.touchesFile =
          [.openFile path true] := rfl
      exact .opens touches
    · exact .keeps rfl rfl
  · exact .keeps rfl rfl

theorem actionFiles (environment : Environment) (event : Option Event)
    (data : SessionData) (action : Action) :
    ActionFiles data (action.run environment event data).1
      (action.run environment event data).2 action := by
  cases action with
  | formDataPacket => exact .keeps rfl isOpen_formDataPacket
  | writeData =>
      by_cases taken :
        (data.fileStream.write environment.acceptsWrite).2 = true
      · have touches : (writeData environment data).2.filter
            Effect.touchesFile =
              [.writeFile (Packet.payload data.incoming)] := by
          rw [writeData_effects, if_pos taken]
          rfl
        exact .writes touches isOpen_writeData
      · refine .keeps ?_ isOpen_writeData
        rw [Action.run, writeData_effects, if_neg taken]
        rfl
  | initServeReadRequest =>
      cases event with
      | none => exact .keeps rfl rfl
      | some event =>
          cases event with
          | requestReceived request =>
              exact initServeReadRequest_files environment request data
          | _ => exact .keeps rfl rfl
  | initServeWriteRequest =>
      cases event with
      | none => exact .keeps rfl rfl
      | some event =>
          cases event with
          | requestReceived request =>
              exact initServeWriteRequest_files environment request data
          | _ => exact .keeps rfl rfl
  | reset =>
      by_cases isOpen : data.fileStream.isOpen = true
      · refine .closes ?_ rfl
        simp only [Action.run, resetSession, isOpen, if_true]
        rfl
      · have closed : data.fileStream.isOpen = false := by simpa using isOpen
        refine .keeps ?_ closed.symm
        simp only [Action.run, resetSession, closed, Bool.false_eq_true,
          if_false]
        rfl
  | _ => exact .keeps rfl rfl

end Streams

section Touching

variable {config : Config} {machine next : Machine} {row : Row}
  {environment : Environment} {event : Option Event} {input : Input}
  {exitEffects effects : List Effect}

theorem FireCases.touches
    (cases : FireCases machine row environment event exitEffects effects
      next) :
    effects.filter Effect.touchesFile =
      (row.action.run environment event machine.data).2.filter
        Effect.touchesFile := by
  have exits : exitEffects.filter Effect.touchesFile = [] := by
    rcases exit_effects cases.exits with rfl | rfl <;> rfl
  have enters : (row.target.entry
      (row.action.run environment event machine.data).1).2.filter
        Effect.touchesFile = [] := by
    cases row.target <;> simp [State.entry, enterAccepting, enterSending,
      enterReceive, Effect.touchesFile]
  rw [cases.effects_eq, List.filter_append, List.filter_append, exits, enters,
    List.append_nil, List.nil_append]

/-- What a step of a session does to files. -/
inductive FileCases (machine : Machine) (input : Input)
    (effects : List Effect) (next : Machine) : Prop
  | keeps (touches : effects.filter Effect.touchesFile = [])
      (stream : next.data.fileStream.isOpen =
        machine.data.fileStream.isOpen)
      (ends : Step.Fires ⟨machine, input, effects, next⟩ .reset →
        next.data.fileStream.isOpen = false)
  | opens {path : Bytes} {truncates : Bool}
      (touches : effects.filter Effect.touchesFile =
        [.openFile path truncates])
      (accepts : machine.state = .accepting)
      (fires : Step.Fires ⟨machine, input, effects, next⟩
        (if truncates then .initServeWriteRequest
          else .initServeReadRequest))
      (served : next.state = if truncates then .writeRequestReceived
        else .readRequestReceived)
  | writes {bytes : Bytes}
      (touches : effects.filter Effect.touchesFile = [.writeFile bytes])
      (waits : machine.state = .waitingForData)
      (fires : Step.Fires ⟨machine, input, effects, next⟩ .writeData)
      (lands : next.state = .dataWritten)
      (stream : next.data.fileStream.isOpen =
        machine.data.fileStream.isOpen)
  | closes (touches : effects.filter Effect.touchesFile = [.closeFile])
      (resets : Step.Fires ⟨machine, input, effects, next⟩ .reset)
      (stream : next.data.fileStream.isOpen = false)

theorem Machine.WellFormed.fileCases (wellFormed : machine.WellFormed config)
    (stepped : machine.step input = some (next, effects)) :
    FileCases machine input effects next := by
  cases input with
  | complete completion =>
      cases stepCases stepped with
      | complete settled idle started =>
          cases completion <;> exact .keeps rfl rfl (by simp [Step.Fires])
  | parse =>
      cases stepCases stepped with
      | parse settled running => exact .keeps rfl rfl (by simp [Step.Fires])
  | reject =>
      cases stepCases stepped with
      | reject settled running refused =>
          exact .keeps rfl rfl (by simp [Step.Fires])
  | fire row environment =>
      obtain ⟨event, exitEffects, cases⟩ := wellFormed.fireCases stepped
      have firing := cases.firing
      have stream : next.data.fileStream =
          (row.action.run environment event machine.data).1.fileStream := by
        rw [cases.next_eq, Machine.entering, entry_data]
        split <;> rfl
      have touches := cases.touches
      have acted := actionFiles environment event machine.data row.action
      generalize acts : row.action = action at acted firing touches stream
      cases acted with
      | keeps quiet same =>
          refine .keeps (touches.trans quiet) (by rw [stream, same]) ?_
          rintro ⟨other, _, taken, resets⟩
          obtain ⟨rfl, _⟩ := Input.fire.inj taken
          rw [stream, ← acts, resets]
          rfl
      | @opens path truncates opened =>
          obtain ⟨accepts, _, target⟩ := firing.of_initServe
            (by cases truncates <;> simp)
          refine .opens (touches.trans opened) accepts
            ⟨row, environment, rfl, acts⟩ ?_
          rw [cases.state_eq, target]
          cases truncates <;> rfl
      | writes written same =>
          obtain ⟨waits, _, target, _⟩ := firing.of_writeData
          exact .writes (touches.trans written) waits
            ⟨row, environment, rfl, acts⟩ (cases.state_eq.trans target)
            (by rw [stream, same])
      | closes closed gone =>
          exact .closes (touches.trans closed)
            ⟨row, environment, rfl, acts⟩ (by rw [stream, gone])

end Touching

section Invariants

variable {Session File : Type*}

/-- A session has a file open exactly when its stream is; while it serves a
read request it has nothing to write. -/
structure SessionFits (machine : Machine)
    (handle : Option (Handle File UInt8)) : Prop where
  isOpen : handle.isSome = machine.data.fileStream.isOpen
  busy : handle.isSome = true → machine.state.busy = true
  reads : ∀ current ∈ handle, current.truncated = false →
    current.pending = [] ∧ ReadRole machine.data machine.state

/-- The invariant of a server. -/
structure TftpServer.WellFormed (config : Config)
    (server : TftpServer Session File) : Prop where
  machines : ∀ session, (server.machines session).WellFormed config
  fits : ∀ session,
    SessionFits (server.machines session) (server.store.handles session)

/-- Another session that does not have the file open for writing has nothing
to write to it. -/
theorem TftpServer.Alone.spares {config : Config} {session other : Session}
    {server : TftpServer Session File} {file : File}
    (alone : server.Alone session file)
    (wellFormed : server.WellFormed config) (different : other ≠ session) :
    server.store.Spares other file := by
  intro handle found same
  cases truncated : handle.truncated with
  | true => exact absurd same (alone other different handle found truncated)
  | false =>
      exact ((wellFormed.fits other).reads handle found truncated).1

theorem TftpServer.started_wellFormed (config : Config)
    (files : File → Bytes) :
    (TftpServer.started config files : TftpServer Session File).WellFormed
      config :=
  ⟨fun _ => Machine.started_wellFormed config,
    fun _ => ⟨rfl, by simp [started], by simp [started]⟩⟩

variable [DecidableEq Session] [DecidableEq File]
  {locate : Bytes → File} {config : Config} {session other : Session}
  {store : Store Session File UInt8} {opened flushes : Bool}
  {machine next : Machine} {input : Input} {effects : List Effect}

/-- Only some effects change what is in the files. -/
theorem foldl_touch (effects : List Effect) :
    effects.foldl (touch locate session opened flushes) store =
      (effects.filter Effect.touchesFile).foldl
        (touch locate session opened flushes) store := by
  induction effects generalizing store with
  | nil => rfl
  | cons effect effects ih =>
      rw [List.foldl_cons, ih]
      cases effect <;> rfl

theorem handles_touch_other (different : other ≠ session)
    (effects : List Effect) :
    (effects.foldl (touch locate session opened flushes) store).handles
      other = store.handles other := by
  induction effects generalizing store with
  | nil => rfl
  | cons effect effects ih =>
      rw [List.foldl_cons, ih]
      cases effect with
      | openFile path truncate =>
          cases opened with
          | true =>
              exact Store.handles_openFile_other different (locate path)
                truncate
          | false => rfl
      | writeFile bytes => exact Store.handles_write_other different bytes
      | closeFile => exact Store.handles_close_other different flushes
      | _ => rfl

omit [DecidableEq Session] [DecidableEq File] in
theorem SessionFits.closed {handle : Option (Handle File UInt8)}
    (fits : SessionFits machine handle) (accepts : machine.state = .accepting) :
    handle = none := by
  cases found : handle with
  | none => rfl
  | some current =>
      have serving := fits.busy (by rw [found]; rfl)
      simp [accepts, State.busy] at serving

theorem SessionFits.step
    (fits : SessionFits machine (store.handles session))
    (wellFormed : machine.WellFormed config)
    (stepped : machine.step input = some (next, effects)) :
    SessionFits next ((effects.foldl (touch locate session
      next.data.fileStream.isOpen flushes) store).handles session) := by
  obtain ⟨isOpen, busy, reads⟩ := id fits
  rw [foldl_touch]
  cases wellFormed.fileCases stepped with
  | keeps touches stream ends =>
      rw [touches, List.foldl_nil]
      by_cases resets : Step.Fires ⟨machine, input, effects, next⟩ .reset
      · have closed : store.handles session = none := by
          rw [← stream, ends resets] at isOpen
          simpa using isOpen
        rw [closed]
        exact ⟨(ends resets).symm, by simp, by simp⟩
      · refine ⟨isOpen.trans stream.symm, fun some => ?_,
          fun current member reading => ?_⟩
        · exact (wellFormed.busyCases (busy some) stepped resets).busy
            (busy some)
        · obtain ⟨nothing, role⟩ := reads current member reading
          exact ⟨nothing, (role.step wellFormed stepped resets).1⟩
  | @opens path truncates touches accepts fires served =>
      have closed := fits.closed accepts
      rw [touches]
      cases stream : next.data.fileStream.isOpen with
      | false =>
          simp only [List.foldl_cons, List.foldl_nil, touch,
            Bool.false_eq_true, if_false, closed]
          exact ⟨stream.symm, by simp, by simp⟩
      | true =>
          simp only [List.foldl_cons, List.foldl_nil, touch, if_true,
            Store.handles_openFile]
          refine ⟨stream.symm, fun _ => ?_, fun current member reading => ?_⟩
          · rw [served]
            split <;> rfl
          · obtain rfl := Option.some.inj member
            obtain rfl : truncates = false := reading
            rw [served]
            exact ⟨rfl, trivial⟩
  | @writes bytes touches waits fires lands stream =>
      rw [touches]
      simp only [List.foldl_cons, List.foldl_nil, touch, Store.handles_write]
      refine ⟨?_, fun _ => ?_, fun current member reading => ?_⟩
      · rw [Option.isSome_map, stream]
        exact isOpen
      · rw [lands]
        rfl
      · obtain ⟨earlier, inside, rfl⟩ :=
          Option.map_eq_some_iff.mp member
        have role := (reads earlier inside reading).2
        rw [waits] at role
        exact role.elim
  | closes touches resets stream =>
      rw [touches]
      simp only [List.foldl_cons, List.foldl_nil, touch, Store.handles_close]
      exact ⟨stream.symm, by simp, by simp⟩

theorem SessionFits.opens
    (fits : SessionFits machine (store.handles session))
    (wellFormed : machine.WellFormed config)
    (stepped : machine.step input = some (next, effects))
    (accepts : machine.state = .accepting)
    (some : (effects.foldl (touch locate session
      next.data.fileStream.isOpen flushes) store).handles session ≠ none) :
    ∃ path truncates,
      effects.foldl (touch locate session next.data.fileStream.isOpen
          flushes) store =
        store.openFile session (locate path) truncates ∧
      next.state = if truncates then .writeRequestReceived
        else .readRequestReceived := by
  have closed := fits.closed accepts
  rw [foldl_touch] at some ⊢
  cases wellFormed.fileCases stepped with
  | keeps touches stream ends =>
      rw [touches] at some
      exact absurd closed some
  | @opens path truncates touches _ fires served =>
      rw [touches] at some ⊢
      cases stream : next.data.fileStream.isOpen with
      | false =>
          rw [stream] at some
          exact absurd closed some
      | true => exact ⟨path, truncates, rfl, served⟩
  | writes touches waits fires lands stream =>
      simp [accepts] at waits
  | closes touches resets stream =>
      rw [touches] at some
      exact absurd (Store.handles_close flushes) some

/-- What a step of the server does. -/
inductive ServerCases (locate : Bytes → File)
    (server : TftpServer Session File) :
    ServerInput Session → List Effect → TftpServer Session File → Prop
  | step {session : Session} {input : Input} {next : Machine}
      {effects : List Effect}
      (stepped : (server.machines session).step input =
        some (next, effects)) :
      ServerCases locate server (.step session input) effects
        { machines := Function.update server.machines session next
          store := effects.foldl
            (touch locate session next.data.fileStream.isOpen
              input.flushes) server.store }
  | drain {session : Session} {count : Nat} :
      ServerCases locate server (.drain session count) []
        { server with store := server.store.drain 0 session count }

theorem serverCases {before after : TftpServer Session File}
    {signal : ServerInput Session}
    (stepped : before.step locate signal = some (after, effects)) :
    ServerCases locate before signal effects after := by
  cases signal with
  | step session input =>
      simp only [TftpServer.step, Option.map_eq_some_iff,
        Prod.mk.injEq] at stepped
      obtain ⟨⟨next, _⟩, stepped, rfl, rfl⟩ := stepped
      exact .step stepped
  | drain session count =>
      simp only [TftpServer.step, Option.some.injEq, Prod.mk.injEq] at stepped
      obtain ⟨rfl, rfl⟩ := stepped
      exact .drain

theorem SessionFits.drain
    (fits : SessionFits machine (store.handles other)) (count : Nat) :
    SessionFits machine ((store.drain 0 session count).handles other) := by
  by_cases same : other = session
  · subst same
    cases found : store.handles other with
    | none =>
        rw [Store.drain_of_closed found]
        exact fits
    | some current =>
        obtain ⟨isOpen, busy, reads⟩ := fits
        rw [found] at isOpen busy
        rw [Store.handles_drain found]
        refine ⟨isOpen, busy, ?_⟩
        intro drained member reading
        obtain rfl := Option.some.inj member
        obtain ⟨nothing, role⟩ := reads current found reading
        exact ⟨by simp [nothing], role⟩
  · rw [Store.handles_drain_other same]
    exact fits

theorem TftpServer.WellFormed.step {before after : TftpServer Session File}
    {signal : ServerInput Session} (wellFormed : before.WellFormed config)
    (stepped : before.step locate signal = some (after, effects)) :
    after.WellFormed config := by
  obtain ⟨machines, fits⟩ := wellFormed
  cases serverCases stepped with
  | @drain session count =>
      exact ⟨machines, fun other => (fits other).drain count⟩
  | @step session input next _ taken =>
      constructor
      · intro other
        by_cases same : other = session
        · subst same
          simp only [Function.update_self]
          exact (machines other).step taken
        · simp only [Function.update_of_ne same]
          exact machines other
      · intro other
        by_cases same : other = session
        · subst same
          simp only [Function.update_self]
          exact (fits other).step (machines other) taken
        · simp only [Function.update_of_ne same, handles_touch_other same]
          exact fits other

theorem TftpServer.Reaches.wellFormed {files : File → Bytes}
    {history : List (ServerStep Session File)}
    {server : TftpServer Session File}
    (run : TftpServer.Reaches locate config files history server) :
    server.WellFormed config :=
  System.Run.invariant run (TftpServer.WellFormed config)
    (TftpServer.started_wellFormed config files)
    fun _ before admitted => before.step admitted

/-- The invariant of an upload to a file that is not open for writing
elsewhere. -/
structure Storing (config : Config) (session : Session) (file : File)
    (history : List (ServerStep Session File))
    (server : TftpServer Session File) : Prop where
  wellFormed : server.WellFormed config
  busy : (server.machines session).state.busy = true
  alone : server.Alone session file
  holds : server.store.Holds session file
    (writtenBlocks (sessionHistory session history)).flatten

theorem written_of_touches (effects : List Effect) :
    effects.filterMap Effect.written =
      (effects.filter Effect.touchesFile).filterMap Effect.written := by
  induction effects with
  | nil => rfl
  | cons effect effects ih =>
      cases effect <;>
        simp [List.filter_cons, List.filterMap_cons, Effect.touchesFile,
          Effect.written, ih]

section Uploads

variable {before after : TftpServer Session File}
  {signal : ServerInput Session} {file : File}
  {history : List (ServerStep Session File)}

omit [DecidableEq File] in
theorem sessionHistory_own (taken : List Effect) :
    sessionHistory session
        (history ++ [⟨before, .step session input, taken, after⟩]) =
      sessionHistory session history ++
        [⟨before.machines session, input, taken, after.machines session⟩] := by
  simp [sessionHistory, System.project, ServerInput.of?]

omit [DecidableEq File] in
theorem sessionHistory_other (apart : signal.of? session = none)
    (taken : List Effect) :
    sessionHistory session (history ++ [⟨before, signal, taken, after⟩]) =
      sessionHistory session history := by
  simp [sessionHistory, System.project, apart]

theorem Storing.step_other
    (storing : Storing config session file history before)
    (different : session ≠ other)
    (taken : (before.machines other).step input = some (next, effects))
    (alone : TftpServer.Alone
      { machines := Function.update before.machines other next
        store := effects.foldl
          (touch locate other next.data.fileStream.isOpen input.flushes)
          before.store } session file) :
    (effects.foldl (touch locate other next.data.fileStream.isOpen
      input.flushes) before.store).Holds session file
        (writtenBlocks (sessionHistory session history)).flatten := by
  obtain ⟨wellFormed, _, apart, holds⟩ := storing
  have spares := apart.spares wellFormed different.symm
  rw [foldl_touch] at alone ⊢
  cases (wellFormed.machines other).fileCases taken with
  | keeps touches stream ends =>
      rw [touches]
      exact holds
  | @opens path truncates touches accepts fires served =>
      rw [touches] at alone ⊢
      cases stream : next.data.fileStream.isOpen with
      | false => exact holds
      | true =>
          rw [stream] at alone
          apply holds.openFile_other different
          intro truncating same
          exact alone other different.symm _
            (Store.handles_openFile (locate path) truncates) truncating
              same.symm
  | @writes bytes touches waits fires lands stream =>
      rw [touches]
      exact holds.write_other different bytes
  | closes touches resets stream =>
      rw [touches]
      exact holds.close_other different spares _

omit [DecidableEq File] in
theorem fires_step {other : Session} {input : Input} {action : Action} :
    ServerStep.fires ⟨before, .step other input, effects, after⟩ session
        action = true ↔
      other = session ∧ ∃ row environment,
        input = .fire row environment ∧ row.action = action := by
  by_cases same : other = session
  · cases input <;> simp [ServerStep.fires, ServerInput.of?, same]
  · simp [ServerStep.fires, ServerInput.of?, same]

theorem Storing.step_own
    (storing : Storing config session file history before)
    (taken : (before.machines session).step input = some (next, effects))
    (ongoing : ¬ Step.Fires
      ⟨before.machines session, input, effects, next⟩ .reset) :
    (effects.foldl (touch locate session next.data.fileStream.isOpen
      input.flushes) before.store).Holds session file
        ((writtenBlocks (sessionHistory session history)).flatten ++
          (effects.filterMap Effect.written).flatten) := by
  obtain ⟨wellFormed, busy, _, holds⟩ := storing
  rw [foldl_touch, written_of_touches]
  cases (wellFormed.machines session).fileCases taken with
  | keeps touches stream ends =>
      rw [touches]
      simpa using holds
  | opens touches accepts fires served =>
      simp [accepts, State.busy] at busy
  | @writes bytes touches waits fires lands stream =>
      rw [touches]
      simpa [Effect.written, touch] using holds.write bytes
  | closes touches resets stream => exact absurd resets ongoing

/-- A step of the server keeps the upload going. -/
theorem Storing.step
    (storing : Storing config session file history before)
    (stepped : before.step locate signal = some (after, effects))
    (ongoing : ServerStep.fires ⟨before, signal, effects, after⟩ session
      .reset = false)
    (alone : after.Alone session file) :
    Storing config session file
      (history ++ [⟨before, signal, effects, after⟩]) after := by
  have wellFormed := storing.wellFormed.step stepped
  obtain ⟨formed, busy, apart, holds⟩ := id storing
  cases serverCases stepped with
  | @drain other count =>
      refine ⟨wellFormed, busy, alone, ?_⟩
      rw [sessionHistory_other rfl]
      by_cases same : other = session
      · subst same
        exact holds.drain count
      · exact holds.drain_other (Ne.symm same)
          (apart.spares formed same) count
  | @step other input next _ taken =>
      by_cases same : other = session
      · subst same
        have continues : ¬ Step.Fires
            ⟨before.machines other, input, effects, next⟩ .reset := by
          intro resets
          rw [fires_step.mpr ⟨rfl, resets⟩] at ongoing
          simp at ongoing
        have landed : next.state.busy = true :=
          ((formed.machines other).busyCases busy taken continues).busy busy
        refine ⟨wellFormed, ?_, alone, ?_⟩
        · simp only [Function.update_self]
          exact landed
        · rw [sessionHistory_own, writtenBlocks_concat, List.flatten_append]
          exact storing.step_own taken continues
      · refine ⟨wellFormed, ?_, alone, ?_⟩
        · simp only [Function.update_of_ne (Ne.symm same)]
          exact busy
        · rw [sessionHistory_other (by simp [ServerInput.of?, same])]
          exact storing.step_other (Ne.symm same) taken alone

theorem Storing.start (wellFormed : before.WellFormed config)
    (stepped : before.step locate signal = some (after, effects))
    (accepts : ServerStep.fires ⟨before, signal, effects, after⟩ session
      .initServeWriteRequest = true)
    (opens : ∃ handle ∈ after.store.handles session, handle.file = file)
    (alone : after.Alone session file) :
    Storing config session file [] after := by
  have formed := wellFormed.step stepped
  obtain ⟨machines, fits⟩ := wellFormed
  cases serverCases stepped with
  | drain => simp [ServerStep.fires, ServerInput.of?] at accepts
  | @step other input next _ taken =>
      obtain ⟨rfl, row, environment, rfl, acts⟩ := fires_step.mp accepts
      obtain ⟨event, exitEffects, cases⟩ := (machines other).fireCases taken
      have firing := cases.firing
      rw [acts] at firing
      obtain ⟨accepting, _, target⟩ := firing.of_initServe (.inr rfl)
      have landed : next.state = .writeRequestReceived :=
        cases.state_eq.trans target
      refine ⟨formed, ?_, alone, ?_⟩
      · simp only [Function.update_self, landed]
        rfl
      · obtain ⟨handle, found, rfl⟩ := opens
        obtain ⟨path, truncates, opened, served⟩ := (fits other).opens
          (machines other) taken accepting (Option.ne_none_iff_exists'.mpr
            ⟨handle, found⟩)
        obtain rfl : truncates = true := by
          rw [landed] at served
          cases truncates with
          | true => rfl
          | false => simp at served
        rw [opened] at found ⊢
        obtain rfl : handle = ⟨locate path, true, 0, []⟩ :=
          Option.some.inj (found.symm.trans (Store.handles_openFile _ _))
        exact Store.holds_openFile before.store other (locate path)

theorem Storing.content_reset {row : Row} {environment : Environment}
    (storing : Storing config session file history before)
    (stepped : before.step locate
      (.step session (.fire row environment)) = some (after, effects))
    (resets : row.action = .reset) :
    after.store.content =
      (before.store.close 0 session environment.flushes).content := by
  obtain ⟨formed, busy, _, holds⟩ := id storing
  cases serverCases stepped with
  | @step _ _ next _ taken =>
      obtain ⟨handle, found, _⟩ := id holds
      have isOpen := (formed.fits session).isOpen
      rw [found] at isOpen
      rw [foldl_touch]
      cases (formed.machines session).fileCases taken with
      | keeps touches stream ends =>
          rw [← stream, ends ⟨row, environment, rfl, resets⟩] at isOpen
          simp at isOpen
      | opens touches accepts fires served =>
          simp [accepts, State.busy] at busy
      | writes touches waits fires lands stream =>
          obtain ⟨other, _, same, writes⟩ := fires
          obtain ⟨rfl, _⟩ := Input.fire.inj same
          simp [resets] at writes
      | closes touches closes stream =>
          rw [touches]
          rfl

/-- The `Reset` that ends an upload leaves the blocks in the file. -/
theorem Storing.close {row : Row} {environment : Environment}
    (storing : Storing config session file history before)
    (stepped : before.step locate
      (.step session (.fire row environment)) = some (after, effects))
    (resets : row.action = .reset) (flushes : environment.flushes = true) :
    after.store.content file =
      (writtenBlocks (sessionHistory session history)).flatten := by
  rw [storing.content_reset stepped resets, flushes]
  exact storing.holds.content_close

/-- The invariant holds until the `Reset` that ends the upload. -/
theorem Storing.of_run {files : File → Bytes}
    {past rest : List (ServerStep Session File)}
    {accept close : ServerStep Session File}
    {server : TftpServer Session File}
    (run : TftpServer.Reaches locate config files
      (past ++ accept :: (rest ++ [close])) server)
    (accepts : accept.fires session .initServeWriteRequest = true)
    (opens : ∃ handle ∈ accept.after.store.handles session,
      handle.file = file)
    (ongoing : ∀ step ∈ rest, ServerStep.fires step session .reset = false)
    (alone : ∀ step ∈ accept :: rest,
      TftpServer.Alone (Transition.after step) session file) :
    Storing config session file rest close.before ∧
      close.before.step locate close.input =
          some (close.after, close.outputs) ∧
        close.after = server := by
  obtain ⟨reached, accepted, continues⟩ := System.run_split.mp run
  obtain ⟨middle, serves, last⟩ := System.run_append.mp continues
  obtain ⟨rfl, closed, ends⟩ := System.run_cons.mp last
  have start : Storing config session file [] accept.after :=
    Storing.start (TftpServer.Reaches.wellFormed reached) accepted accepts
      opens (alone accept (by simp))
  refine ⟨?_, closed, System.run_nil.mp ends⟩
  exact serves.history_invariant
    (fun step => ServerStep.fires step session .reset = false ∧
      TftpServer.Alone (Transition.after step) session file)
    (fun step member => ⟨ongoing step member,
      alone step (List.mem_cons_of_mem accept member)⟩)
    (Storing config session file) start
    fun _ _ storing admitted ⟨ongoing, alone⟩ =>
      storing.step admitted ongoing alone

end Uploads

/-- An upload to a file that no other session has open for writing leaves the
blocks that it wrote. -/
theorem upload_alone_stored (locate : Bytes → File) (config : Config)
    (files : File → Bytes) (session : Session) (file : File)
    (past : List (ServerStep Session File)) (accept : ServerStep Session File)
    (rest : List (ServerStep Session File)) (close : ServerStep Session File)
    (server : TftpServer Session File)
    (upload : UploadOf locate config files session file past accept rest close
      server)
    (alone : ∀ step ∈ accept :: rest,
      TftpServer.Alone (Transition.after step) session file) :
    server.store.content file =
      (writtenBlocks (sessionHistory session rest)).flatten := by
  obtain ⟨run, accepts, opens, ongoing, _, row, environment, ends, resets,
    flushes⟩ := upload
  obtain ⟨storing, closed, rfl⟩ :=
    Storing.of_run run accepts opens ongoing alone
  obtain ⟨before, signal, effects, after⟩ := close
  obtain rfl : signal = .step session (.fire row environment) := ends
  exact storing.close closed resets flushes

end Invariants

section Examples

/-- Inputs of a server, each with the answers of the operating system to the
handler it starts. -/
def TftpServer.script {Session File : Type*}
    (entries : List (ServerInput Session × Environment)) :
    List (ServerInput Session ×
      (TftpServer Session File → Option (ServerInput Session))) :=
  entries.map fun entry =>
    (entry.1, fun server =>
      match entry.1 with
      | .step session _ =>
          ((server.machines session).pending entry.2).map
            (ServerInput.step session)
      | .drain _ _ => none)

/-- A history in which the first step of session `false` accepts a write
request and the last one resets. -/
def checkUpload (check : List (ServerStep Bool Bytes) →
      TftpServer Bool Bytes → Bool)
    (history : List (ServerStep Bool Bytes)) (server : TftpServer Bool Bytes) :
    Bool :=
  match history with
  | _ :: _ :: accept :: others =>
      accept.fires false .initServeWriteRequest &&
        (accept.after.store.handles false).any
          (fun handle => handle.file == asciiBytes ['f']) &&
        others.dropLast.all (fun step =>
          !step.fires false .reset &&
            match step.input with
            | .step _ (.fire _ environment) => environment.acceptsWrite
            | _ => true) &&
        others.getLast?.any (fun close =>
          match close.input with
          | .step session (.fire row environment) =>
              !session && decide (row.action = .reset) && environment.flushes
          | _ => false) &&
        check (accept :: others.dropLast) server
  | _ => false

theorem exists_upload_of_check {files : Bytes → Bytes}
    {check : List (ServerStep Bool Bytes) → TftpServer Bool Bytes → Bool}
    {history : List (ServerStep Bool Bytes)} {server : TftpServer Bool Bytes}
    (run : TftpServer.Reaches id .loopback files history server)
    (passes : checkUpload check history server = true) :
    ∃ past accept rest close,
      UploadOf id .loopback files false (asciiBytes ['f']) past accept rest
          close server ∧
        check (accept :: rest) server = true := by
  match history, run, passes with
  | first :: second :: accept :: others, run, passes =>
      simp only [checkUpload, Bool.and_eq_true, List.all_eq_true,
        Option.any_eq_true, Bool.not_eq_true', beq_iff_eq] at passes
      obtain ⟨⟨⟨⟨accepts, handle, found, same⟩, ongoing⟩, close, last,
        closes⟩, passes⟩ := passes
      have whole : others = others.dropLast ++ [close] :=
        (List.dropLast_append_getLast? close last).symm
      rw [whole] at run
      refine ⟨[first, second], accept, others.dropLast, close,
        ⟨run, accepts, ⟨handle, found, same⟩, fun step member =>
          (ongoing step member).1, ?_, ?_⟩, passes⟩
      · intro step member row environment taken _
        have accepted := (ongoing step member).2
        rw [taken] at accepted
        exact accepted
      · split at closes
        · rename_i session row environment taken
          simp only [Bool.and_eq_true, Bool.not_eq_true',
            decide_eq_true_eq] at closes
          obtain ⟨⟨rfl, resets⟩, flushes⟩ := closes
          exact ⟨row, environment, taken, resets, flushes⟩
        · simp at closes

/-- An upload of one byte whose client stops sending, with a download of the
same file by the other session. -/
def uploadWhileRead : List (ServerInput Bool × Environment) :=
  let own completion := (ServerInput.step false (.complete completion), {})
  [own (.accepted .client (requestOf .writeRequest)), own (.sent false),
    (.step true (.complete (.accepted .client (requestOf .readRequest))), {}),
    own (.received .client ⟨Packet.dataPacket 1 [7], by decide⟩),
    own (.sent false), own .receiveFailed, own (.sent false),
    (.step true (.complete (.sent false)), {}), own .receiveFailed,
    own (.sent false), own .receiveFailed, own (.sent false),
    own .receiveFailed]

/-- The upload leaves its byte while the other session reads the file. -/
theorem upload_stored_while_read :
    ∃ past accept rest close server,
      UploadOf id .loopback (fun _ : Bytes => []) false (asciiBytes ['f'])
          past accept rest close server ∧
        (∃ handle ∈ server.store.handles true,
          handle.file = asciiBytes ['f']) ∧
          server.store.content (asciiBytes ['f']) =
            (writtenBlocks (sessionHistory false rest)).flatten := by
  obtain ⟨history, server, run, passes⟩ :=
    (tftpServer id).exists_run_of_execute
      (TftpServer.started .loopback fun _ : Bytes => []) 7
      (TftpServer.script uploadWhileRead)
      (checkUpload fun steps server =>
        steps.all (fun step => (step.after.store.handles true).all
          fun handle => !handle.truncated) &&
          (server.store.handles true).any
            fun handle => handle.file == asciiBytes ['f'])
      (by decide +kernel)
  obtain ⟨past, accept, rest, close, upload, passes⟩ :=
    exists_upload_of_check run passes
  simp only [Bool.and_eq_true, List.all_eq_true, Option.all_eq_true,
    Option.any_eq_true, Bool.not_eq_true', beq_iff_eq] at passes
  obtain ⟨reads, reading⟩ := passes
  refine ⟨past, accept, rest, close, server, upload, reading, ?_⟩
  apply upload_alone_stored id .loopback (fun _ => []) false (asciiBytes ['f'])
    past accept rest close server upload
  intro step member other different handle found truncated
  obtain rfl : other = true := by simpa using different
  rw [reads step member handle found] at truncated
  simp at truncated

/-- The same request is served by both sessions while the first has written a
byte. -/
def duplicatedRequest : List (ServerInput Bool × Environment) :=
  let own completion := (ServerInput.step false (.complete completion), {})
  [own (.accepted .client (requestOf .writeRequest)), own (.sent false),
    own (.received .client ⟨Packet.dataPacket 1 [7], by decide⟩),
    (.drain false 1, {}),
    (.step true (.complete (.accepted .client (requestOf .writeRequest))),
      {}),
    own (.sent false), own .receiveFailed, own (.sent false),
    own .receiveFailed, own (.sent false), own .receiveFailed,
    own (.sent false), own .receiveFailed]

/-- The second session opens the file that the first has open for writing, and
the byte of the first is gone when its upload ends. -/
theorem duplicated_request_truncates :
    ∃ past accept rest close server,
      UploadOf id .loopback (fun _ : Bytes => []) false (asciiBytes ['f'])
          past accept rest close server ∧
        (∃ step ∈ rest, ¬ TftpServer.Exclusive (Transition.after step)) ∧
          server.store.content (asciiBytes ['f']) ≠
            (writtenBlocks (sessionHistory false rest)).flatten := by
  obtain ⟨history, server, run, passes⟩ :=
    (tftpServer id).exists_run_of_execute
      (TftpServer.started .loopback fun _ : Bytes => []) 7
      (TftpServer.script duplicatedRequest)
      (checkUpload fun steps server =>
        steps.tail.any (fun step => (step.after.store.handles false).any
          fun handle => handle.truncated &&
            (step.after.store.handles true).any
              fun another => another.file == handle.file) &&
          decide (server.store.content (asciiBytes ['f']) = []) &&
            decide ((writtenBlocks (sessionHistory false
              steps.tail)).flatten = [7]))
      (by decide +kernel)
  obtain ⟨past, accept, rest, close, upload, passes⟩ :=
    exists_upload_of_check run passes
  simp only [Bool.and_eq_true, List.any_eq_true, Option.any_eq_true,
    decide_eq_true_eq, beq_iff_eq, List.tail_cons] at passes
  obtain ⟨⟨⟨step, member, handle, found, truncated, another, also, same⟩,
    empty⟩, written⟩ := passes
  refine ⟨past, accept, rest, close, server, upload,
    ⟨step, member, fun exclusive => ?_⟩, ?_⟩
  · exact exclusive false true (by simp) handle found truncated another also
      same
  · rw [empty, of_decide_eq_true written]
    simp

end Examples

end MsmTftp
