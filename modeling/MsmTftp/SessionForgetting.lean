import MsmTftp.SessionConversation
import MsmTftp.SessionInvariant

/-!
# What a session remembers

`Reset` restores every field except the receive time-out, which
`Timer::Reset` does not touch, and the file size, which `TransferState::Reset`
shadows.  Both are set by the options of read requests, so a session returns
to `Accepting` as good as new exactly when the read requests it served left
them alone.
-/

namespace MsmTftp

open CellBuffer TransitionSystem

/-- The read request a step serves, with the answers of the operating
system. -/
def Step.servedRead (step : Step) :
    Option (Environment × RequestReceived) :=
  match step.input, step.before.tasks with
  | .fire row environment, .process (.requestReceived request) :: _ =>
      if row.action = .initServeReadRequest then some (environment, request)
      else none
  | _, _ => none

/-- The read requests served in a history. -/
def servedReads (history : List Step) : List (Environment × RequestReceived) :=
  history.filterMap Step.servedRead

/-- The time-out the last read request with a valid time-out option asked
for. -/
def requestedTimeOut (served : List (Environment × RequestReceived)) : Nat :=
  served.foldl (fun timeOut read =>
    (TimeOutDecoder.getTimeOut read.2.timeOut).getD timeOut) 1000

/-- The file size a read request with a valid transfer size option found. -/
def foundFileSize (config : Config)
    (read : Environment × RequestReceived) : Option Nat :=
  (getMode read.2.mode).bind fun _ =>
    (read.1.readFilePath config.rootPath read.2.fileName).bind fun path =>
      (TransferSizeDecoder.getTransferSize read.2.transferSize).bind fun _ =>
        getFileSize read.1 path

/-- The file size the last such request found. -/
def rememberedFileSize (config : Config)
    (served : List (Environment × RequestReceived)) : Option Nat :=
  served.foldl (fun fileSize read =>
    (foundFileSize config read).or fileSize) none

section Actions

variable {environment : Environment} {event : Option Event}
  {data : SessionData} {action : Action}

/-- Only a served read request changes the time-out and the file size. -/
theorem run_remembers (other : action ≠ .initServeReadRequest) :
    (action.run environment event data).1.timeOut = data.timeOut ∧
      (action.run environment event data).1.fileSize = data.fileSize := by
  by_cases resets : action = .reset
  · subst resets
    exact ⟨rfl, rfl⟩
  · by_cases writes : action = .initServeWriteRequest
    · subst writes
      simp only [Action.run]
      split
      · rename_i request
        obtain ⟨_, _, frame⟩ :=
          initServeWriteRequest_frame environment data request
        simp [frame]
      · simp
    · have same := run_keepsTransfer environment event data resets other writes
      exact ⟨same.timeOut, same.fileSize⟩

@[simp]
theorem setTimeOut_timeOut (request : RequestReceived) :
    (setTimeOut request data).timeOut =
      (TimeOutDecoder.getTimeOut request.timeOut).getD data.timeOut := by
  simp only [setTimeOut]
  split <;> simp_all

@[simp]
theorem setTimeOut_fileSize (request : RequestReceived) :
    (setTimeOut request data).fileSize = data.fileSize := by
  obtain ⟨_, _, frame⟩ := setTimeOut_frame data request
  rw [frame]

@[simp]
theorem setBlockSize_timeOut (request : RequestReceived) :
    (setBlockSize request data).timeOut = data.timeOut := by
  obtain ⟨_, _, frame⟩ := setBlockSize_frame data request
  rw [frame]

@[simp]
theorem setBlockSize_fileSize (request : RequestReceived) :
    (setBlockSize request data).fileSize = data.fileSize := by
  obtain ⟨_, _, frame⟩ := setBlockSize_frame data request
  rw [frame]

@[simp]
theorem setTransferSize_timeOut (request : RequestReceived) (path : Bytes) :
    (setTransferSize environment request path data).timeOut =
      data.timeOut := by
  obtain ⟨_, _, frame⟩ := setTransferSize_frame environment data request path
  rw [frame]

@[simp]
theorem setTransferSize_fileSize (request : RequestReceived) (path : Bytes) :
    (setTransferSize environment request path data).fileSize =
      ((TransferSizeDecoder.getTransferSize request.transferSize).bind
        fun _ => getFileSize environment path).or data.fileSize := by
  simp only [setTransferSize]
  split
  · split <;> simp_all
  · simp_all

theorem openReadFile_timeOut (request : RequestReceived) :
    (openReadFile environment request data).1.timeOut = data.timeOut := by
  simp only [openReadFile, openFileStream]
  repeat' split
  all_goals simp

theorem openReadFile_fileSize (request : RequestReceived) :
    (openReadFile environment request data).1.fileSize =
      (foundFileSize data.config (environment, request)).or
        data.fileSize := by
  simp only [openReadFile, foundFileSize, SessionData.config]
  split
  · rename_i mode
    simp only [mode, Option.bind_some]
    split
    · rename_i path located
      simp [located, openFileStream]
    · rename_i missing
      simp [missing]
  · rename_i unknown
    simp [unknown]

theorem initServeReadRequest_remembers (request : RequestReceived) :
    (initServeReadRequest environment request data).1.timeOut =
        (TimeOutDecoder.getTimeOut request.timeOut).getD data.timeOut ∧
      (initServeReadRequest environment request data).1.fileSize =
        (foundFileSize data.config (environment, request)).or
          data.fileSize := by
  simp only [initServeReadRequest, setBlockSize_timeOut,
    setBlockSize_fileSize, setTimeOut_timeOut, setTimeOut_fileSize,
    openReadFile_timeOut, openReadFile_fileSize]
  exact ⟨rfl, rfl⟩

end Actions

section Histories

variable {config : Config}

@[simp]
theorem servedReads_concat (past : List Step) (step : Step) :
    servedReads (past ++ [step]) =
      servedReads past ++ step.servedRead.toList := by
  simp [servedReads, List.filterMap_append, List.filterMap_cons]
  cases step.servedRead <;> rfl

theorem start_remembers (data : SessionData) (completion : Completion) :
    (completion.start data).1.timeOut = data.timeOut ∧
      (completion.start data).1.fileSize = data.fileSize := by
  cases completion <;> exact ⟨rfl, rfl⟩

theorem step_remembers {machine next : Machine} {input : Input}
    {effects : List Effect}
    (stepped : machine.step input = some (next, effects))
    (configured : machine.data.config = config) :
    next.data.timeOut =
        (Step.servedRead ⟨machine, input, effects, next⟩).toList.foldl
          (fun timeOut read =>
            (TimeOutDecoder.getTimeOut read.2.timeOut).getD timeOut)
          machine.data.timeOut ∧
      next.data.fileSize =
        (Step.servedRead ⟨machine, input, effects, next⟩).toList.foldl
          (fun fileSize read => (foundFileSize config read).or fileSize)
          machine.data.fileSize := by
  cases stepCases stepped with
  | complete settled idle started =>
      exact start_remembers machine.data _
  | parse settled running => exact ⟨rfl, rfl⟩
  | reject settled running refused => exact ⟨rfl, rfl⟩
  | @fire row environment event tasks exitEffects settled running firing
      exits acted entered acts enters allEffects =>
      have kept : entered.1.timeOut = acted.1.timeOut ∧
          entered.1.fileSize = acted.1.fileSize := by
        rw [enters, entry_data]
        split <;> exact ⟨rfl, rfl⟩
      simp only [kept, acts]
      by_cases reads : row.action = .initServeReadRequest
      · rw [reads] at firing ⊢
        obtain ⟨request, rfl⟩ :=
          Event.eq_requestReceived (firing.of_initServe (.inl rfl)).2.1
        have served : Step.servedRead
            ⟨machine, .fire row environment, effects, ⟨row.target, entered.1,
              machine.outstanding ++ effects.filterMap Effect.operation,
              tasks⟩⟩ = some (environment, request) := by
          simp only [Option.toList_some, List.map_cons, List.map_nil,
            List.cons_append, List.nil_append] at running
          simp [Step.servedRead, running, reads]
        rw [served, ← configured]
        exact initServeReadRequest_remembers request
      · have silent : Step.servedRead
            ⟨machine, .fire row environment, effects, ⟨row.target, entered.1,
              machine.outstanding ++ effects.filterMap Effect.operation,
              tasks⟩⟩ = none := by
          simp only [Step.servedRead]
          split <;> simp_all
        rw [silent]
        exact run_remembers reads

theorem Reaches.remembers {history : List Step} {machine : Machine}
    (run : Reaches config history machine) :
    machine.data.timeOut = requestedTimeOut (servedReads history) ∧
      machine.data.fileSize =
        rememberedFileSize config (servedReads history) := by
  apply run.history_induction fun history machine =>
    machine.data.timeOut = requestedTimeOut (servedReads history) ∧
      machine.data.fileSize =
        rememberedFileSize config (servedReads history)
  · exact ⟨rfl, rfl⟩
  · rintro past before input effects after ⟨timeOut, fileSize⟩ wellFormed
      stepped
    obtain ⟨timeOutAfter, fileSizeAfter⟩ :=
      step_remembers stepped wellFormed.configured
    constructor
    · rw [timeOutAfter, timeOut, servedReads_concat, requestedTimeOut,
        requestedTimeOut, List.foldl_append]
    · rw [fileSizeAfter, fileSize, servedReads_concat,
        rememberedFileSize, rememberedFileSize, List.foldl_append]

theorem SessionData.Rested.eq_fresh {data : SessionData}
    (rested : data.Rested config) (timeOut : data.timeOut = 1000)
    (fileSize : data.fileSize = none) : data = SessionData.fresh config := by
  have timer : data.toTimer = ⟨1000⟩ := congrArg Timer.mk timeOut
  rw [Rested, timer, fileSize] at rested
  exact rested

/-- A session that returns to `Accepting` differs from a started one at most
in the time-out and the file size. -/
theorem eq_started_of_returns {machine next : Machine} {input : Input}
    {effects : List Effect} (wellFormed : machine.WellFormed config)
    (stepped : machine.step input = some (next, effects))
    (leaves : machine.state ≠ .accepting)
    (returns : next.state = .accepting) :
    next = Machine.started config ↔
      next.data.timeOut = 1000 ∧ next.data.fileSize = none := by
  cases stepCases stepped with
  | @fire row environment event tasks exitEffects settled running firing
      exits acted entered acts enters =>
      have allEffects : effects = exitEffects ++ acted.2 ++ entered.2 := by
        assumption
      have arrives : row.target = .accepting := returns
      obtain ⟨idle, nothing⟩ := wellFormed.shape.of_firing running firing
        fun accepts => absurd accepts leaves
      rw [arrives] at firing enters
      obtain ⟨source, action⟩ := firing.source_of_accepting
      have rested := wellFormed.rested (.inl source)
      rw [action, Action.run] at acts
      rw [source, State.exit, Option.some.injEq] at exits
      constructor
      · intro same
        rw [same]
        exact ⟨rfl, rfl⟩
      · rintro ⟨timeOut, fileSize⟩
        simp only [enters, acts, State.entry, enterAccepting]
          at timeOut fileSize
        rw [rested.eq_fresh timeOut fileSize] at acts
        rw [allEffects, ← exits, enters, acts, nothing, idle, arrives]
        rfl
  | complete settled idle started => exact absurd returns leaves
  | parse settled running => exact absurd returns leaves
  | reject settled running refused => exact absurd returns leaves

theorem servedRead_of_returns {machine next : Machine} {input : Input}
    {effects : List Effect}
    (stepped : machine.step input = some (next, effects))
    (leaves : machine.state ≠ .accepting)
    (returns : next.state = .accepting) :
    Step.servedRead ⟨machine, input, effects, next⟩ = none := by
  cases stepCases stepped with
  | @fire row environment event tasks exitEffects settled running firing =>
      have arrives : row.target = .accepting := returns
      rw [arrives] at firing
      obtain ⟨_, action⟩ := firing.source_of_accepting
      simp only [Step.servedRead]
      split <;> simp_all
  | complete settled idle started => exact absurd returns leaves
  | parse settled running => exact absurd returns leaves
  | reject settled running refused => exact absurd returns leaves

theorem rememberedFileSize_eq_none_iff
    {served : List (Environment × RequestReceived)} :
    rememberedFileSize config served = none ↔
      ∀ read ∈ served, foundFileSize config read = none := by
  induction served using List.reverseRecOn with
  | nil => simp [rememberedFileSize]
  | append_singleton served read ih =>
      rw [rememberedFileSize] at ih
      simp only [rememberedFileSize, List.foldl_append, List.foldl_cons,
        List.foldl_nil, Option.or_eq_none_iff, ih, List.forall_mem_append,
        List.forall_mem_singleton]
      exact and_comm

/-- A session that returns to `Accepting` is as good as a started one exactly
when the last valid time-out option of its read requests asked for the default
and no read request found a file size to report. -/
theorem returns_started_iff {past : List Step} {machine next : Machine}
    {input : Input} {effects : List Effect}
    (run : Reaches config past machine)
    (stepped : machine.step input = some (next, effects))
    (leaves : machine.state ≠ .accepting)
    (returns : next.state = .accepting) :
    next = Machine.started config ↔
      requestedTimeOut (servedReads past) = 1000 ∧
        ∀ read ∈ servedReads past, foundFileSize config read = none := by
  have wellFormed := run.wellFormed
  have silent := servedRead_of_returns stepped leaves returns
  obtain ⟨timeOut, fileSize⟩ := (run.extend stepped).remembers
  rw [servedReads_concat, silent, Option.toList_none, List.append_nil]
    at timeOut fileSize
  rw [eq_started_of_returns wellFormed stepped leaves returns, timeOut,
    fileSize, rememberedFileSize_eq_none_iff]

/-- A refused read request leaves nothing behind. -/
theorem started_after_refusal :
    ∃ past step, Reaches .loopback past step.before ∧
      session.Admits step ∧ servedReads past ≠ [] ∧
        step.after = Machine.started .loopback := by
  obtain ⟨past, step, run, admitted, passes⟩ :=
    exists_step_of_converse .loopback
      [(.accepted .client ⟨[0, 1, 102, 0, 120, 0], by decide⟩, {}),
        (.sent false, {})]
      (fun past step => decide (step.before.state ≠ .accepting) &&
        decide (step.after.state = .accepting) &&
        decide (requestedTimeOut (servedReads past) = 1000) &&
        (servedReads past).all (fun read =>
          decide (foundFileSize .loopback read = none)) &&
        !(servedReads past).isEmpty) (by decide +kernel)
  simp only [Bool.and_eq_true, decide_eq_true_eq, List.all_eq_true,
    Bool.not_eq_true', List.isEmpty_eq_false_iff] at passes
  obtain ⟨⟨⟨⟨leaves, returns⟩, timeOut⟩, fileSize⟩, served⟩ := passes
  exact ⟨past, step, run, admitted, served,
    (returns_started_iff run admitted leaves returns).mpr
      ⟨timeOut, fileSize⟩⟩

end Histories

section Leaks

/-- A read of an empty file with a time-out of two seconds and the transfer
size, up to the return to `Accepting`. -/
private def transferWithOptions : List (Completion × Environment) :=
  let environment : Environment := { fileSize := fun _ => some 0 }
  [(.accepted .client
      ⟨wordBytes 1 ++ asciiBytes ['f', '\x00'] ++ kOctetMode ++ [0] ++
        TimeOutDecoder.kTimeOutOption ++ asciiBytes ['\x00', '2', '\x00'] ++
        TransferSizeDecoder.kTransferSizeOption ++
        asciiBytes ['\x00', '0', '\x00'], by decide⟩, environment),
    (.sent false, environment),
    (.received .client (ackOf 0), environment),
    (.sent false, environment),
    (.received .client (ackOf 1), environment)]

/-- A read request without options, up to the wait for its first ACK. -/
private def plainRead : List (Completion × Environment) :=
  [(.accepted .client (requestOf .readRequest), {}), (.sent false, {})]

/-- The durations a conversation arms the timer with. -/
def armedTimeOuts (answers : List (Completion × Environment)) :
    Option (List Nat) :=
  ((Machine.started .loopback).converse answers).map fun result =>
    (result.1.flatMap Transition.outputs).filterMap fun effect =>
      match effect with
      | .startTimer duration => some duration
      | _ => none

/-- After a transfer with options the time-out and the file size survive, and
the next transfer waits with the time-out of the previous one. -/
theorem options_survive :
    (∃ past step, Reaches .loopback past step.before ∧
      session.Admits step ∧ step.before.state = .resetted ∧
        step.after.state = .accepting ∧
          step.after.data.timeOut = 2000 ∧
            step.after.data.fileSize = some 0) ∧
      armedTimeOuts (transferWithOptions ++ plainRead) =
        some [2000, 2000, 2000] ∧
      armedTimeOuts plainRead = some [1000] := by
  refine ⟨?_, by decide +kernel, by decide +kernel⟩
  obtain ⟨past, step, run, admitted, passes⟩ :=
    exists_step_of_converse .loopback transferWithOptions
      (fun _ step => decide (step.before.state = .resetted) &&
        decide (step.after.state = .accepting) &&
        decide (step.after.data.timeOut = 2000) &&
        decide (step.after.data.fileSize = some 0)) (by decide +kernel)
  simp only [Bool.and_eq_true, decide_eq_true_eq] at passes
  obtain ⟨⟨⟨leaves, returns⟩, timeOut⟩, fileSize⟩ := passes
  exact ⟨past, step, run, admitted, leaves, returns, timeOut, fileSize⟩

end Leaks

end MsmTftp
