import MsmTftp.ServerFiles
import MsmTftp.SessionReports

/-!
# Bytes that an upload loses

The ACK of a block is sent when the file stream has taken the block.  A later
failure to write it out is reported when the stream refuses another block, but
only logged when `Reset` closes the stream.
-/

namespace MsmTftp

open CellBuffer FileStore TransitionSystem

/-- A session that serves a write request, from the step that accepts it to
the `Reset` that ends it, with any failures of its file stream, while the other
sessions of the server do anything. -/
structure WriteSession {Session File : Type*} [DecidableEq Session]
    [DecidableEq File] (locate : Bytes → File) (config : Config)
    (files : File → Bytes) (session : Session)
    (past : List (ServerStep Session File)) (accept : ServerStep Session File)
    (rest : List (ServerStep Session File)) (close : ServerStep Session File)
    (server : TftpServer Session File) : Prop where
  run : TftpServer.Reaches locate config files
    (past ++ accept :: (rest ++ [close])) server
  accepts : accept.fires session .initServeWriteRequest = true
  ongoing : ∀ step ∈ rest, ServerStep.fires step session .reset = false
  resets : close.fires session .reset = true

/-- While the write session lasts, no other session has its file open for
writing. -/
def Undisturbed {Session File : Type*} (session : Session)
    (accept : ServerStep Session File) (rest : List (ServerStep Session File)) :
    Prop :=
  ∀ handle ∈ accept.after.store.handles session, ∀ step ∈ accept :: rest,
    TftpServer.Alone (Transition.after step) session handle.file

/-- Every byte that was passed to `write` and is not in the file belongs to a
block whose ACK was not sent, or was followed by an ERROR to the client. -/
def NoSilentLoss (client : Endpoint) (inFile : Nat → UInt8 → Prop)
    (history : List Step) : Prop :=
  ∀ earlier write later payload, history = earlier ++ write :: later →
    Step.passedBlock write = some payload →
      ∀ index byte, payload[index]? = some byte →
        ¬ inFile ((passedBlocks earlier).flatten.length + index) byte →
          ∀ between ack after, later = between ++ ack :: after →
            Step.Confirms ack write →
              ∃ report ∈ after, Step.Reports report client

/-- A byte of the file that the session opened when it accepted a request. -/
def TftpServer.InFile {Session File : Type*} (session : Session)
    (server : TftpServer Session File) (accept : ServerStep Session File)
    (position : Nat) (byte : UInt8) : Prop :=
  ∃ handle ∈ accept.after.store.handles session,
    (server.store.content handle.file)[position]? = some byte

/-- The step closes the file stream without a failure. -/
def ServerStep.flushes {Session File : Type*}
    (step : ServerStep Session File) : Bool :=
  match step.input with
  | .step _ input => input.flushes
  | .drain _ _ => true

section Blocks

/-- Every byte of the blocks passed to `write` belongs to one of them. -/
theorem exists_passedBlock (history : List Step) {position : Nat}
    (bound : position < (passedBlocks history).flatten.length) :
    ∃ earlier write later payload index byte,
      history = earlier ++ write :: later ∧
        Step.passedBlock write = some payload ∧
          payload[index]? = some byte ∧
            (passedBlocks earlier).flatten.length + index = position := by
  induction history using List.reverseRecOn with
  | nil => simp [passedBlocks] at bound
  | append_singleton history step ih =>
      by_cases before : position < (passedBlocks history).flatten.length
      · obtain ⟨earlier, write, later, payload, index, byte, rfl, passed,
          found, sum⟩ := ih before
        exact ⟨earlier, write, later ++ [step], payload, index, byte,
          by simp, passed, found, sum⟩
      · rw [passedBlocks_concat] at bound
        cases passed : step.passedBlock with
        | none =>
            rw [passed] at bound
            exact absurd (by simpa using bound) before
        | some payload =>
            rw [passed, Option.toList_some, List.flatten_concat,
              List.length_append] at bound
            have inside : position - (passedBlocks history).flatten.length <
                payload.length := by
              omega
            exact ⟨history, step, [], payload, _, _, rfl, passed,
              List.getElem?_eq_getElem inside, by omega⟩

theorem flatten_passedBlocks {earlier later : List Step} {write : Step}
    {payload : Bytes} (passed : write.passedBlock = some payload)
    {index : Nat} {byte : UInt8} (found : payload[index]? = some byte) :
    (passedBlocks (earlier ++ write :: later)).flatten[
      (passedBlocks earlier).flatten.length + index]? = some byte := by
  have split : passedBlocks (earlier ++ write :: later) =
      passedBlocks earlier ++ payload :: passedBlocks later := by
    simp [passedBlocks, passed]
  have bound : index < payload.length :=
    (List.getElem?_eq_some_iff.mp found).1
  rw [split, List.flatten_append, List.getElem?_append_right (by omega),
    List.flatten_cons, Nat.add_sub_cancel_left,
    List.getElem?_append_left bound]
  exact found

end Blocks

section Sessions

variable {Session File : Type*} [DecidableEq Session] [DecidableEq File]
  {locate : Bytes → File} {config : Config} {files : File → Bytes}
  {history : List (ServerStep Session File)}
  {server : TftpServer Session File}

theorem TftpServer.Reaches.reaches
    (run : TftpServer.Reaches locate config files history server)
    (own : Session) :
    MsmTftp.Reaches config (sessionHistory own history)
      (server.machines own) := by
  apply System.Run.project run (fun server => server.machines own)
    fun _ input => input.of? own
  · rintro ⟨before, signal, effects, after⟩ admitted other
    have taken : before.step locate signal = some (after, effects) :=
      admitted
    cases serverCases taken with
    | drain => rfl
    | @step session _ next _ stepped =>
        have different : session ≠ own := by
          rintro rfl
          simp [ServerInput.of?] at other
        exact Function.update_of_ne (Ne.symm different) _ _
  · rintro ⟨before, signal, effects, after⟩ input admitted taken
    have serves : before.step locate signal = some (after, effects) :=
      admitted
    cases serverCases serves with
    | drain => simp [ServerInput.of?] at taken
    | @step session _ next _ stepped =>
        simp only [ServerInput.of?] at taken
        split at taken
        · next same =>
          subst same
          obtain rfl := Option.some.inj taken
          simp only [Function.update_self]
          exact stepped
        · cases taken

omit [DecidableEq File] in
theorem ServerStep.exists_own {step : ServerStep Session File} {own : Session}
    {action : Action} (fires : step.fires own action = true) :
    ∃ row environment, step.input = .step own (.fire row environment) ∧
      row.action = action := by
  obtain ⟨before, signal, effects, after⟩ := step
  cases signal with
  | drain => simp [ServerStep.fires, ServerInput.of?] at fires
  | step other input =>
      obtain ⟨rfl, row, environment, rfl, acts⟩ := fires_step.mp fires
      exact ⟨row, environment, rfl, acts⟩

/-- The step of a session that a step of the server is. -/
def ServerStep.own (step : ServerStep Session File) (own : Session)
    (input : Input) : Step :=
  ⟨step.before.machines own, input, step.outputs, step.after.machines own⟩

omit [DecidableEq File] in
theorem sessionHistory_cons {own : Session} {input : Input}
    {step : ServerStep Session File} (taken : step.input = .step own input) :
    sessionHistory own (step :: history) =
      step.own own input :: sessionHistory own history := by
  simp [sessionHistory, System.project, taken, ServerInput.of?,
    ServerStep.own]

theorem TftpServer.Reaches.serving
    {past rest : List (ServerStep Session File)}
    {accept : ServerStep Session File} {own : Session} {action : Action}
    (run : TftpServer.Reaches locate config files (past ++ accept :: rest)
      server)
    (accepts : accept.fires own action = true)
    (ongoing : ∀ step ∈ rest, ServerStep.fires step own .reset = false) :
    ∃ input, Serving config action (sessionHistory own past)
      (accept.own own input) (sessionHistory own rest)
        (server.machines own) := by
  obtain ⟨row, environment, taken, acts⟩ := ServerStep.exists_own accepts
  have run := run.reaches own
  refine ⟨.fire row environment, ?_, ⟨row, environment, rfl, acts⟩, ?_⟩
  · have split : sessionHistory own (past ++ accept :: rest) =
        sessionHistory own past ++ sessionHistory own (accept :: rest) :=
      List.filterMap_append
    rw [split, sessionHistory_cons taken] at run
    exact run
  · rintro step member ⟨row, environment, fires, resets⟩
    obtain ⟨whole, inside, projected⟩ := List.mem_filterMap.mp member
    have ongoing := ongoing whole inside
    simp only [System.project, Option.map_eq_some_iff] at projected
    obtain ⟨input, own, rfl⟩ := projected
    obtain rfl : input = .fire row environment := fires
    simp [ServerStep.fires, own, resets] at ongoing

end Sessions

theorem BusyCases.isOpen {machine next : Machine} {input : Input}
    {effects : List Effect} (cases : BusyCases machine input effects next)
    (busy : machine.state.busy = true) :
    next.data.fileStream.isOpen = machine.data.fileStream.isOpen := by
  cases cases with
  | @complete completion idle uses drives => cases completion <;> rfl
  | @fire row environment event _ _ _ cases ongoing target data_eq =>
      rw [data_eq]
      have firing := cases.firing
      have acted := actionFiles environment event machine.data row.action
      generalize row.action = action at acted firing ongoing
      cases acted with
      | keeps touches stream => exact stream
      | writes touches stream => exact stream
      | closes => exact absurd rfl ongoing
      | @opens path truncates touches =>
          have accepting := (firing.of_initServe
            (by cases truncates <;> simp)).1
          exact absurd accepting (State.ne_accepting_of_busy busy)

section Uploads

variable {Session File : Type*} [DecidableEq Session] [DecidableEq File]
  {locate : Bytes → File} {config : Config} {files : File → Bytes}
  {session : Session} {past rest : List (ServerStep Session File)}
  {accept close : ServerStep Session File} {server : TftpServer Session File}

theorem WriteSession.serving
    (upload : WriteSession locate config files session past accept rest close
      server) :
    ∃ input, Serving config .initServeWriteRequest (sessionHistory session past)
      (accept.own session input) (sessionHistory session rest)
        (close.before.machines session) := by
  have whole := upload.run
  rw [← List.cons_append, ← List.append_assoc] at whole
  obtain ⟨before, _, _⟩ := System.run_concat.mp whole
  exact TftpServer.Reaches.serving before upload.accepts upload.ongoing

theorem WriteSession.closes
    (upload : WriteSession locate config files session past accept rest close
      server) :
    ∃ row environment,
      close.input = .step session (.fire row environment) ∧
        row.action = .reset ∧ close.after = server ∧
          (close.before.machines session).state ≠ .dataWritten ∧
            close.outputs.filterMap Effect.packet = [] := by
  obtain ⟨row, environment, taken, resets⟩ :=
    ServerStep.exists_own upload.resets
  have whole := upload.run
  rw [← List.cons_append, ← List.append_assoc] at whole
  obtain ⟨before, admitted, ends⟩ := System.run_concat.mp whole
  have wellFormed :=
    (TftpServer.Reaches.wellFormed before).machines session
  obtain ⟨start, signal, effects, finish⟩ := close
  obtain rfl : signal = .step session (.fire row environment) := taken
  have stepped : start.step locate (.step session (.fire row environment)) =
      some (finish, effects) := admitted
  refine ⟨row, environment, rfl, resets, ends, ?_⟩
  cases serverCases stepped with
  | @step _ _ next _ fires =>
      obtain ⟨event, exitEffects, cases⟩ := wellFormed.fireCases fires
      have firing := cases.firing
      rw [resets] at firing
      constructor
      · intro waits
        rw [waits] at firing
        rcases firing.of_dataWritten with ⟨_, acts, _⟩ | ⟨_, acts, _⟩
        · exact absurd acts (by decide)
        · exact absurd acts (by decide)
      · rw [cases.packets, firing.target_of_reset]
        rfl

/-- What the file holds after `Reset`. -/
theorem WriteSession.content
    (upload : WriteSession locate config files session past accept rest close
      server)
    (undisturbed : Undisturbed session accept rest)
    {handle : Handle File UInt8}
    (opened : accept.after.store.handles session = some handle) :
    ∃ held, close.before.store.handles session = some held ∧
      close.before.store.content handle.file ++ held.pending =
          (writtenBlocks (sessionHistory session rest)).flatten ∧
        server.store.content handle.file =
          if close.flushes then
            (writtenBlocks (sessionHistory session rest)).flatten
          else close.before.store.content handle.file := by
  obtain ⟨row, environment, taken, resets, _⟩ := upload.closes
  obtain ⟨storing, stepped, rfl⟩ := Storing.of_run upload.run upload.accepts
    ⟨handle, opened, rfl⟩ upload.ongoing (undisturbed handle opened)
  obtain ⟨held, found, same, _, _, whole⟩ := storing.holds
  refine ⟨held, found, whole, ?_⟩
  obtain ⟨start, signal, effects, finish⟩ := close
  obtain rfl : signal = .step session (.fire row environment) := taken
  rw [storing.content_reset stepped resets]
  have same : ServerStep.flushes
      (⟨start, .step session (.fire row environment), effects, finish⟩ :
        ServerStep Session File) = environment.flushes :=
    rfl
  rw [same]
  cases environment.flushes with
  | true => exact storing.holds.content_close
  | false => rfl

theorem WriteSession.isOpen_iff
    (upload : WriteSession locate config files session past accept rest close
      server) :
    (accept.after.store.handles session).isSome =
        (accept.after.machines session).data.fileStream.isOpen ∧
      (close.before.store.handles session).isSome =
        (close.before.machines session).data.fileStream.isOpen := by
  obtain ⟨reached, accepted, continues⟩ := System.run_split.mp upload.run
  have after := (TftpServer.Reaches.wellFormed reached).step accepted
  have whole := upload.run
  rw [← List.cons_append, ← List.append_assoc] at whole
  obtain ⟨before, _, _⟩ := System.run_concat.mp whole
  exact ⟨(after.fits session).isOpen,
    ((TftpServer.Reaches.wellFormed before).fits session).isOpen⟩

theorem WriteSession.exists_opened
    (upload : WriteSession locate config files session past accept rest close
      server)
    {held : Handle File UInt8}
    (holds : close.before.store.handles session = some held) :
    ∃ handle, accept.after.store.handles session = some handle := by
  obtain ⟨input, serving⟩ := upload.serving
  obtain ⟨start, finish⟩ := upload.isOpen_iff
  rw [← Option.isSome_iff_exists, start]
  rw [holds] at finish
  have kept : (close.before.machines session).data.fileStream.isOpen =
      (accept.after.machines session).data.fileStream.isOpen := by
    apply serving.history_invariant (.inr rfl) (fun _ => True)
      (fun _ _ => trivial) fun _ machine =>
        machine.data.fileStream.isOpen =
          (accept.after.machines session).data.fileStream.isOpen
    · rfl
    · intro _ _ _ _ _ _ busy same cases _
      rw [cases.isOpen busy, same]
  exact kept.symm.trans finish.symm

theorem WriteSession.opened
    (upload : WriteSession locate config files session past accept rest close
      server)
    (calm : (close.before.machines session).state ≠ .sendingError)
    {step : Step} (member : step ∈ sessionHistory session rest) {payload : Bytes}
    (passed : step.passedBlock = some payload) :
    ∃ handle, accept.after.store.handles session = some handle := by
  obtain ⟨input, serving⟩ := upload.serving
  obtain ⟨_, _, _, _, _, answered, _⟩ := upload.closes
  rw [← Option.isSome_iff_exists, upload.isOpen_iff.1]
  by_contra other
  have closed : (accept.after.machines session).data.fileStream.isOpen =
      false := by
    simpa using other
  rcases serving.reports_of_closed closed member passed with errs | waits
  · exact calm errs
  · exact answered waits

theorem WriteSession.inFile
    (upload : WriteSession locate config files session past accept rest close
      server)
    (undisturbed : Undisturbed session accept rest)
    (calm : (close.before.machines session).state ≠ .sendingError)
    (complete : close.flushes = true ∨
      ∀ held ∈ close.before.store.handles session, held.pending = [])
    {earlier later : List Step} {write : Step} {payload : Bytes}
    (whole : sessionHistory session rest = earlier ++ write :: later)
    (passed : write.passedBlock = some payload) {index : Nat} {byte : UInt8}
    (found : payload[index]? = some byte) :
    server.InFile session accept ((passedBlocks earlier).flatten.length + index)
      byte := by
  obtain ⟨input, serving⟩ := upload.serving
  obtain ⟨_, _, _, _, _, answered, _⟩ := upload.closes
  obtain ⟨handle, opened⟩ := upload.opened calm (by simp [whole]) passed
  obtain ⟨held, holds, split, final⟩ := upload.content undisturbed opened
  have stored : server.store.content handle.file =
      (writtenBlocks (sessionHistory session rest)).flatten := by
    rw [final]
    split
    · rfl
    · next unflushed =>
      have nothing := complete.resolve_left unflushed held holds
      rw [nothing, List.append_nil] at split
      exact split
  refine ⟨handle, opened, ?_⟩
  rw [stored, ← serving.passedBlocks_eq calm answered, whole]
  exact flatten_passedBlocks passed found

/-- While bytes are left with a stream that `Reset` closes without writing
them out, one of them is missing in the file. -/
theorem WriteSession.exists_lost
    (upload : WriteSession locate config files session past accept rest close
      server)
    (undisturbed : Undisturbed session accept rest)
    (calm : (close.before.machines session).state ≠ .sendingError)
    (unflushed : close.flushes = false) {held : Handle File UInt8}
    (holds : close.before.store.handles session = some held)
    (pending : held.pending ≠ []) :
    ∃ earlier write later payload index byte,
      sessionHistory session rest = earlier ++ write :: later ∧
        Step.passedBlock write = some payload ∧
          payload[index]? = some byte ∧
            ¬ server.InFile session accept
              ((passedBlocks earlier).flatten.length + index) byte := by
  obtain ⟨input, serving⟩ := upload.serving
  obtain ⟨_, _, _, _, _, answered, _⟩ := upload.closes
  obtain ⟨handle, opened⟩ := upload.exists_opened holds
  obtain ⟨other, same, split, final⟩ := upload.content undisturbed opened
  rw [holds, Option.some.injEq] at same
  subst same
  rw [unflushed, if_neg Bool.false_ne_true] at final
  rw [← serving.passedBlocks_eq calm answered] at split
  have short : (close.before.store.content handle.file).length <
      (passedBlocks (sessionHistory session rest)).flatten.length := by
    rw [← split, List.length_append]
    have := List.length_pos_iff.mpr pending
    omega
  obtain ⟨earlier, write, later, payload, index, byte, whole, passed, found,
    position⟩ := exists_passedBlock _ short
  refine ⟨earlier, write, later, payload, index, byte, whole, passed, found,
    ?_⟩
  rintro ⟨another, also, inFile⟩
  rw [opened, Option.mem_some_iff] at also
  subst also
  rw [position, final, List.getElem?_eq_none (le_refl _)] at inFile
  exact absurd inFile nofun

theorem exists_later {history earlier later : List Step} {step last : Step}
    (whole : history ++ [last] = earlier ++ step :: later)
    (different : step ≠ last) :
    ∃ rest, later = rest ++ [last] ∧ history = earlier ++ step :: rest := by
  rcases List.eq_nil_or_concat later with rfl | ⟨rest, other, rfl⟩
  · have same := (List.append_inj' whole rfl).2
    rw [List.cons.injEq] at same
    exact absurd same.1.symm different
  · rw [List.concat_eq_append, ← List.cons_append,
      ← List.append_assoc] at whole
    obtain ⟨front, same⟩ := List.append_inj' whole rfl
    rw [List.cons.injEq] at same
    rw [List.concat_eq_append, same.1]
    exact ⟨rest, rfl, front⟩

theorem WriteSession.exists_last
    (upload : WriteSession locate config files session past accept rest close
      server) :
    ∃ last : Step,
      sessionHistory session (rest ++ [close]) =
          sessionHistory session rest ++ [last] ∧
        last.passedBlock = none ∧
          last.outputs.filterMap Effect.packet = [] := by
  obtain ⟨row, environment, taken, resets, _, _, silent⟩ := upload.closes
  refine ⟨close.own session (.fire row environment), ?_, ?_, silent⟩
  · have split : sessionHistory session (rest ++ [close]) =
        sessionHistory session rest ++ sessionHistory session [close] :=
      List.filterMap_append
    rw [split, sessionHistory_cons taken]
    rfl
  · simp [ServerStep.own, Step.passedBlock, Step.fires, resets]

/-- What is left with a stream that `Reset` closes without writing it out is
lost, and the client is not told. -/
theorem WriteSession.loses
    (upload : WriteSession locate config files session past accept rest close
      server)
    (undisturbed : Undisturbed session accept rest)
    (calm : (close.before.machines session).state ≠ .sendingError)
    (unflushed : close.flushes = false) {held : Handle File UInt8}
    (holds : close.before.store.handles session = some held)
    (pending : held.pending ≠ []) :
    ¬ NoSilentLoss (accept.after.machines session).data.agreedRemoteEndpoint
      (server.InFile session accept)
      (sessionHistory session (rest ++ [close])) := by
  intro reported
  obtain ⟨input, serving⟩ := upload.serving
  obtain ⟨_, _, _, _, _, answered, _⟩ := upload.closes
  obtain ⟨last, whole, _, silent⟩ := upload.exists_last
  obtain ⟨earlier, write, later, payload, index, byte, front, passed, found,
    lost⟩ := upload.exists_lost undisturbed calm unflushed holds pending
  rw [whole, front] at reported
  rw [front] at serving
  cases serving.answers passed with
  | reports errs => exact calm errs
  | fails waits => exact answered waits
  | saves waits => exact answered waits
  | acknowledges takes acknowledged =>
      obtain ⟨ack, member, acknowledges⟩ := acknowledged
      obtain ⟨between, after, rfl⟩ := List.append_of_mem member
      obtain ⟨report, inside, packet, sent, error⟩ :=
        reported earlier write (between ++ ack :: after ++ [last]) payload
          (by simp) passed index byte found lost between ack
            (after ++ [last]) (by simp) acknowledges
      rcases List.mem_append.mp inside with inside | inside
      · apply calm
        exact serving.sendingError_of_error (by simp [inside]) sent error
      · rw [List.mem_singleton.mp inside, silent] at sent
        exact List.not_mem_nil sent

/-- A session that ends after an ERROR has told the client, and an undisturbed
one loses nothing but what is left with the stream. -/
theorem WriteSession.reports
    (upload : WriteSession locate config files session past accept rest close
      server)
    (condition : (close.before.machines session).state = .sendingError ∨
      Undisturbed session accept rest ∧ (close.flushes = true ∨
        ∀ held ∈ close.before.store.handles session, held.pending = [])) :
    NoSilentLoss (accept.after.machines session).data.agreedRemoteEndpoint
      (server.InFile session accept)
      (sessionHistory session (rest ++ [close])) := by
  intro earlier write later payload whole passed index byte found lost between
    ack after split acknowledges
  obtain ⟨input, serving⟩ := upload.serving
  obtain ⟨last, history_eq, nothing, silent⟩ := upload.exists_last
  obtain ⟨receiver, sent⟩ := acknowledges
  rw [history_eq] at whole
  have writes : write ≠ last := by
    rintro rfl
    rw [nothing] at passed
    exact absurd passed nofun
  obtain ⟨prior, rfl, front⟩ := exists_later whole writes
  have sends : ack ≠ last := by
    rintro rfl
    rw [silent] at sent
    exact List.not_mem_nil sent
  obtain ⟨after, rfl, rfl⟩ := exists_later split sends
  by_cases errs : (close.before.machines session).state = .sendingError
  · have other : Packet.opCode
        (Packet.ackPacket write.before.data.receivedWord) ≠ .error := by
      rw [Packet.opCode_ackPacket]
      decide
    rw [front, ← List.cons_append, ← List.append_assoc] at serving
    obtain ⟨report, member, reports⟩ :=
      serving.exists_report sent other errs
    exact ⟨report, List.mem_append_left _ member, reports⟩
  · obtain ⟨undisturbed, complete⟩ := condition.resolve_left errs
    exact absurd (upload.inFile undisturbed errs complete front passed found)
      lost

end Uploads

/-- An upload loses no acknowledged byte silently when it ends after an ERROR,
or when no other session has its file open for writing and `Reset` writes out
what is left with the stream, or nothing is left there.  An upload that is not
disturbed loses a byte silently in all other cases. -/
theorem no_silent_loss {Session File : Type*} [DecidableEq Session]
    [DecidableEq File] (locate : Bytes → File) (config : Config)
    (files : File → Bytes) (session : Session)
    (past : List (ServerStep Session File)) (accept : ServerStep Session File)
    (rest : List (ServerStep Session File)) (close : ServerStep Session File)
    (server : TftpServer Session File)
    (upload : WriteSession locate config files session past accept rest close
      server) :
    ((close.before.machines session).state = .sendingError ∨
        Undisturbed session accept rest ∧ (close.flushes = true ∨
          ∀ held ∈ close.before.store.handles session, held.pending = []) →
      NoSilentLoss (accept.after.machines session).data.agreedRemoteEndpoint
        (server.InFile session accept)
        (sessionHistory session (rest ++ [close]))) ∧
    (Undisturbed session accept rest →
      NoSilentLoss (accept.after.machines session).data.agreedRemoteEndpoint
        (server.InFile session accept)
        (sessionHistory session (rest ++ [close])) →
      (close.before.machines session).state = .sendingError ∨
        close.flushes = true ∨
          ∀ held ∈ close.before.store.handles session, held.pending = []) := by
  refine ⟨upload.reports, fun undisturbed reported => ?_⟩
  by_contra fails
  simp only [not_or, Bool.not_eq_true, not_forall] at fails
  obtain ⟨calm, unflushed, held, holds, pending⟩ := fails
  exact upload.loses undisturbed calm unflushed holds pending reported

section Examples

/-- A history whose third step accepts a write request in session `false` and
whose last one is the first `Reset` of this session after that.  The other
session only reads. -/
def checkWriteSession (check : ServerStep Bool Bytes → Bool)
    (history : List (ServerStep Bool Bytes)) (_ : TftpServer Bool Bytes) :
    Bool :=
  match history with
  | _ :: _ :: accept :: others =>
      accept.fires false .initServeWriteRequest &&
        others.dropLast.all (fun step => !step.fires false .reset) &&
        (accept :: others.dropLast).all (fun step =>
          (step.after.store.handles true).all fun handle =>
            !handle.truncated) &&
          others.getLast?.any fun close =>
            close.fires false .reset && check close
  | _ => false

theorem exists_writeSession_of_check {files : Bytes → Bytes}
    {check : ServerStep Bool Bytes → Bool}
    {history : List (ServerStep Bool Bytes)} {server : TftpServer Bool Bytes}
    (run : TftpServer.Reaches id .loopback files history server)
    (passes : checkWriteSession check history server = true) :
    ∃ past accept rest close,
      WriteSession id .loopback files false past accept rest close server ∧
        Undisturbed false accept rest ∧ check close = true := by
  match history, run, passes with
  | first :: second :: accept :: others, run, passes =>
      simp only [checkWriteSession, Bool.and_eq_true, List.all_eq_true,
        Option.all_eq_true, Option.any_eq_true, Bool.not_eq_true'] at passes
      obtain ⟨⟨⟨accepts, ongoing⟩, reads⟩, close, last, resets, passes⟩ :=
        passes
      have whole : others = others.dropLast ++ [close] :=
        (List.dropLast_append_getLast? close last).symm
      rw [whole] at run
      refine ⟨[first, second], accept, others.dropLast, close,
        ⟨run, accepts, ongoing, resets⟩, ?_, passes⟩
      intro _ _ step member other different handle found truncated
      obtain rfl : other = true := by simpa using different
      rw [reads step member handle found] at truncated
      simp at truncated

/-- An upload of one byte whose client stops sending after the ACK, where
closing the file stream flushes it or not.  The other session reads the
file. -/
def uploadOfByte (flushes : Bool) :
    List (ServerInput Bool × Environment) :=
  let own completion := (ServerInput.step false (.complete completion), {})
  [own (.accepted .client (requestOf .writeRequest)), own (.sent false),
    own (.received .client ⟨Packet.dataPacket 1 [9], by decide⟩),
    (.step true (.complete (.accepted .client (requestOf .readRequest))), {}),
    own (.sent false), own .receiveFailed, own (.sent false),
    own .receiveFailed, own (.sent false), own .receiveFailed,
    own (.sent false),
    (.step false (.complete .receiveFailed), { flushes })]

theorem flushed_upload_kept :
    ∃ past accept rest close server,
      WriteSession id .loopback (fun _ : Bytes => []) false past accept rest
          close server ∧
        NoSilentLoss
          (Machine.data (accept.after.machines false)).agreedRemoteEndpoint
          (server.InFile false accept)
          (sessionHistory false (rest ++ [close])) := by
  obtain ⟨history, server, run, passes⟩ :=
    (tftpServer id).exists_run_of_execute
      (TftpServer.started .loopback fun _ : Bytes => []) 7
      (TftpServer.script (uploadOfByte true))
      (checkWriteSession fun close => close.flushes) (by decide +kernel)
  obtain ⟨past, accept, rest, close, upload, undisturbed, flushes⟩ :=
    exists_writeSession_of_check run passes
  exact ⟨past, accept, rest, close, server, upload,
    (no_silent_loss id .loopback (fun _ => []) false past accept rest close
      server upload).1 (.inr ⟨undisturbed, .inl flushes⟩)⟩

/-- The byte was acknowledged and is lost when the stream is closed. -/
theorem unflushed_upload_lost :
    ∃ past accept rest close server,
      WriteSession id .loopback (fun _ : Bytes => []) false past accept rest
          close server ∧
        ¬ NoSilentLoss
          (Machine.data (accept.after.machines false)).agreedRemoteEndpoint
          (server.InFile false accept)
          (sessionHistory false (rest ++ [close])) := by
  obtain ⟨history, server, run, passes⟩ :=
    (tftpServer id).exists_run_of_execute
      (TftpServer.started .loopback fun _ : Bytes => []) 7
      (TftpServer.script (uploadOfByte false))
      (checkWriteSession fun close =>
        decide ((close.before.machines false).state ≠ .sendingError) &&
          !close.flushes && (close.before.store.handles false).any fun held =>
            !held.pending.isEmpty)
      (by decide +kernel)
  obtain ⟨past, accept, rest, close, upload, undisturbed, passes⟩ :=
    exists_writeSession_of_check run passes
  simp only [Bool.and_eq_true, decide_eq_true_eq, Bool.not_eq_true',
    Option.any_eq_true, List.isEmpty_eq_false_iff] at passes
  obtain ⟨⟨calm, unflushed⟩, held, holds, pending⟩ := passes
  exact ⟨past, accept, rest, close, server, upload,
    upload.loses undisturbed calm unflushed holds pending⟩

end Examples

end MsmTftp
