import MsmTftp.SessionOrigin
import MsmTftp.SessionUploadNumbers

/-!
# What an upload reports to its client

A session that serves a write request sends an ERROR only when it enters
`SendingError`, which only `Reset` leaves.  A block that the file stream does
not take leads there; a block that it takes is acknowledged by the next row.
-/

namespace MsmTftp

open CellBuffer TransitionSystem

/-- The block that the step passes to `write`. -/
def Step.passedBlock (step : Step) : Option Bytes :=
  if step.fires .writeData then
    some (Packet.payload step.before.data.incoming)
  else none

def passedBlocks (history : List Step) : List Bytes :=
  history.filterMap Step.passedBlock

/-- The step sends the ACK of the block that another step passed to
`write`. -/
def Step.Confirms (step write : Step) : Prop :=
  ∃ receiver, (Packet.ackPacket write.before.data.receivedWord, receiver) ∈
    step.outputs.filterMap Effect.packet

/-- The step sends an ERROR to the client. -/
def Step.Reports (step : Step) (client : Endpoint) : Prop :=
  ∃ packet, (packet, client) ∈ step.outputs.filterMap Effect.packet ∧
    Packet.opCode packet = .error

section Roles

variable {data : SessionData} {state source target : State}
  {event : Option EventKind} {action : Action} {environment : Environment}
  {happens : Option Event}

theorem passedBlocks_concat (history : List Step) (step : Step) :
    passedBlocks (history ++ [step]) =
      passedBlocks history ++ step.passedBlock.toList := by
  cases passed : step.passedBlock <;> simp [passedBlocks, passed]

theorem Firing.of_dataWritten
    (firing : Firing data .dataWritten event action target) :
    data.hasError = false ∧ action = .formAckPacket ∧ target = .sendingAck ∨
      data.hasError = true ∧ action = .formErrorPacket ∧
        target = .sendingError := by
  cases firing with
  | dataSaved noError => exact .inl ⟨noError, rfl, rfl⟩
  | saveFailed error => exact .inr ⟨error, rfl, rfl⟩

end Roles

section Steps

variable {machine next : Machine} {input : Input} {effects : List Effect}

theorem BusyCases.sendingError_iff
    (cases : BusyCases machine input effects next)
    (role : UploadRole machine.data machine.state)
    {packet : Bytes} {receiver : Endpoint}
    (sent : (packet, receiver) ∈ effects.filterMap Effect.packet) :
    next.state = .sendingError ↔ Packet.opCode packet = .error := by
  obtain ⟨sends, rfl⟩ := cases.packets sent
  have after := cases.uploadRole role
  constructor
  · intro errs
    rw [errs] at after
    exact after
  · intro error
    by_contra other
    exact after.opCode_ne sends other error

theorem BusyCases.stays_sendingError
    (cases : BusyCases machine input effects next)
    (errs : machine.state = .sendingError) :
    next.state = .sendingError := by
  cases cases with
  | complete idle uses drives => exact errs
  | fire cases ongoing busy data_eq =>
      have firing := cases.firing
      rw [errs] at firing
      exact absurd firing.of_sendingError.1 ongoing

theorem BusyCases.reports (cases : BusyCases machine input effects next)
    (role : UploadRole machine.data machine.state)
    (other : machine.state ≠ .sendingError)
    (enters : next.state = .sendingError) :
    Step.Reports ⟨machine, input, effects, next⟩
      machine.data.agreedRemoteEndpoint := by
  have after := cases.uploadRole role
  rw [enters] at after
  rw [← cases.agreedRemoteEndpoint]
  cases cases with
  | complete idle uses drives => exact absurd enters other
  | fire cases ongoing busy data_eq =>
      refine ⟨_, ?_, after⟩
      rw [cases.packets, ← cases.state_eq, enters, data_eq]
      simp [State.operation]

end Steps

section Transfers

variable {config : Config} {past before after rest : List Step}
  {accept step write : Step} {machine : Machine}

theorem Serving.agreedRemoteEndpoint
    (serving : Serving config .initServeWriteRequest past accept rest
      machine) :
    machine.data.agreedRemoteEndpoint =
      accept.after.data.agreedRemoteEndpoint := by
  apply serving.history_invariant (.inr rfl) (fun _ => True)
    (fun _ _ => trivial) fun _ machine => machine.data.agreedRemoteEndpoint =
      accept.after.data.agreedRemoteEndpoint
  · rfl
  · intro _ _ _ _ _ _ _ same cases _
    rw [cases.agreedRemoteEndpoint, same]

/-- After an ERROR, nothing but `Reset` follows. -/
theorem Serving.sendingError_of_error
    (serving : Serving config .initServeWriteRequest past accept rest machine)
    (member : step ∈ rest) {packet : Bytes} {receiver : Endpoint}
    (sent : (packet, receiver) ∈ step.outputs.filterMap Effect.packet)
    (error : Packet.opCode packet = .error) :
    machine.state = .sendingError := by
  obtain ⟨before, after, rfl⟩ := List.append_of_mem member
  obtain ⟨_, cases⟩ := serving.busyCases (.inr rfl)
  have role := serving.before.1.uploadRole
  apply serving.later_invariant (.inr rfl)
    fun _ machine => machine.state = .sendingError
  · exact (cases.sendingError_iff role sent).mpr error
  · intro _ _ _ _ _ _ errs cases
    exact cases.stays_sendingError errs

theorem Serving.exists_report
    (serving : Serving config .initServeWriteRequest past accept
      (before ++ step :: after) machine)
    {packet : Bytes} {receiver : Endpoint}
    (sent : (packet, receiver) ∈ step.outputs.filterMap Effect.packet)
    (other : Packet.opCode packet ≠ .error)
    (errs : machine.state = .sendingError) :
    ∃ report ∈ after,
      Step.Reports report accept.after.data.agreedRemoteEndpoint := by
  obtain ⟨_, cases⟩ := serving.busyCases (.inr rfl)
  have earlier := serving.before.1
  have calm : step.after.state ≠ .sendingError := by
    intro errs
    exact other ((cases.sendingError_iff earlier.uploadRole sent).mp errs)
  have invariant : UploadRole machine.data machine.state ∧
      machine.data.agreedRemoteEndpoint =
          accept.after.data.agreedRemoteEndpoint ∧
        (machine.state = .sendingError → ∃ report ∈ after,
          Step.Reports report accept.after.data.agreedRemoteEndpoint) := by
    apply serving.later_invariant (.inr rfl) fun history machine =>
      UploadRole machine.data machine.state ∧
        machine.data.agreedRemoteEndpoint =
            accept.after.data.agreedRemoteEndpoint ∧
          (machine.state = .sendingError → ∃ report ∈ history,
            Step.Reports report accept.after.data.agreedRemoteEndpoint)
    · refine ⟨cases.uploadRole earlier.uploadRole, ?_, ?_⟩
      · rw [cases.agreedRemoteEndpoint, earlier.agreedRemoteEndpoint]
      · intro errs
        exact absurd errs calm
    · rintro history machine input effects next _ ⟨role, same, reported⟩ cases
      refine ⟨cases.uploadRole role, ?_, ?_⟩
      · rw [cases.agreedRemoteEndpoint, same]
      · intro enters
        by_cases errs : machine.state = .sendingError
        · obtain ⟨report, member, reports⟩ := reported errs
          exact ⟨report, List.mem_append_left _ member, reports⟩
        · have reports := cases.reports role errs enters
          rw [same] at reports
          exact ⟨_, by simp, reports⟩
  exact invariant.2.2 errs

/-- The step passes a block to `write`, and the stream takes it. -/
def Step.Takes (write : Step) : Prop :=
  write.outputs.filterMap Effect.written = write.passedBlock.toList

/-- What follows a step that passes a block to `write`: an error is reported,
the session still has to answer, or it has acknowledged the block. -/
inductive BlockAnswered (write : Step) (history : List Step) (machine : Machine) :
    Prop
  | reports (errs : machine.state = .sendingError)
  | fails (waits : machine.state = .dataWritten)
      (error : machine.data.hasError = true)
  | saves (waits : machine.state = .dataWritten) (takes : write.Takes)
      (saved : machine.data.lastSavedBlock =
        write.before.data.receivedWord.toNat)
  | acknowledges (takes : write.Takes)
      (acknowledged : ∃ ack ∈ history, Step.Confirms ack write)

theorem BlockAnswered.start {payload : Bytes}
    (cases : BusyCases write.before write.input write.outputs write.after)
    (passed : write.passedBlock = some payload) :
    BlockAnswered write [] write.after := by
  have written : write.fires .writeData = true := by
    by_contra other
    simp [Step.passedBlock, other] at passed
  obtain ⟨row, environment, taken, acts⟩ := Step.fires_iff.mpr written
  rw [taken] at cases
  cases cases with
  | @fire _ _ event exitEffects _ _ cases ongoing busy data_eq =>
      have firing := cases.firing
      rw [acts] at firing
      have waits : write.after.state = .dataWritten := by
        rw [cases.state_eq]
        exact firing.of_writeData.2.2.1
      rw [acts, Action.run] at data_eq
      by_cases takes : write.before.data.fileStream.good = true ∧
          environment.acceptsWrite = true
      · have saved := writeData_of_good takes.1 takes.2
        apply BlockAnswered.saves waits
        · rw [Step.Takes, cases.written, passed]
          simp only [Step.passedBlock, written, if_true,
            Option.some.injEq] at passed
          simp [acts, FileStream.write, takes, passed]
        · rw [data_eq, saved]
          rfl
      · apply BlockAnswered.fails waits
        rw [data_eq]
        exact (writeData_of_failed takes).1

/-- The row after a block that was taken acknowledges it. -/
theorem BlockAnswered.extend {history : List Step} {next : Machine} {input : Input}
    {effects : List Effect} (answers : BlockAnswered write history machine)
    (cases : BusyCases machine input effects next) :
    BlockAnswered write (history ++ [⟨machine, input, effects, next⟩]) next := by
  cases answers with
  | reports errs => exact .reports (cases.stays_sendingError errs)
  | acknowledges takes acknowledged =>
      obtain ⟨ack, member, acknowledges⟩ := acknowledged
      exact .acknowledges takes
        ⟨ack, List.mem_append_left _ member, acknowledges⟩
  | fails waits error =>
      cases cases with
      | @complete completion idle uses drives =>
          have kept : (completion.start machine.data).1.hasError = true := by
            cases completion <;> exact error
          exact .fails waits kept
      | fire cases ongoing busy data_eq =>
          have firing := cases.firing
          rw [waits] at firing
          rcases firing.of_dataWritten with ⟨noError, _⟩ | ⟨_, _, target⟩
          · rw [error] at noError
            exact absurd noError (by decide)
          · exact .reports (cases.state_eq.trans target)
  | saves waits takes saved =>
      cases cases with
      | @complete completion idle uses drives =>
          have kept : (completion.start machine.data).1.lastSavedBlock =
              write.before.data.receivedWord.toNat := by
            cases completion <;> exact saved
          exact .saves waits takes kept
      | fire cases ongoing busy data_eq =>
          have firing := cases.firing
          rw [waits] at firing
          rcases firing.of_dataWritten with
            ⟨_, acts, target⟩ | ⟨_, _, target⟩
          · apply BlockAnswered.acknowledges takes
            refine ⟨_, List.mem_concat_self, ?_⟩
            rw [Step.Confirms, cases.packets, target, acts]
            simp [State.operation, Action.run, outgoing_formAckPacket, saved]
          · exact .reports (cases.state_eq.trans target)

theorem Serving.answers
    (serving : Serving config .initServeWriteRequest past accept
      (before ++ write :: after) machine)
    {payload : Bytes} (passed : write.passedBlock = some payload) :
    BlockAnswered write after machine := by
  obtain ⟨_, cases⟩ := serving.busyCases (.inr rfl)
  apply serving.later_invariant (.inr rfl) (BlockAnswered write)
    (.start cases passed)
  intro history machine input effects next _ answers cases
  exact answers.extend cases

theorem passedBlocks_eq (takes : ∀ step ∈ rest, Step.Takes step) :
    passedBlocks rest = writtenBlocks rest := by
  induction rest using List.reverseRecOn with
  | nil => rfl
  | append_singleton history step ih =>
      have taken : step.Takes := takes step (by simp)
      rw [passedBlocks_concat, writtenBlocks_concat, taken,
        ih fun other member => takes other (List.mem_append_left _ member)]

theorem BusyCases.takes {next : Machine} {input : Input}
    {effects : List Effect} (cases : BusyCases machine input effects next)
    (nothing : Step.passedBlock ⟨machine, input, effects, next⟩ = none) :
    Step.Takes ⟨machine, input, effects, next⟩ := by
  rw [Step.Takes, nothing]
  cases cases with
  | @complete completion idle uses drives => cases completion <;> rfl
  | @fire row environment event exitEffects _ _ cases ongoing busy data_eq =>
      have other : row.action ≠ .writeData := by
        intro writes
        simp [Step.passedBlock, Step.fires, writes] at nothing
      rw [cases.written, if_neg fun writes => other writes.1]
      rfl

/-- While no error is reported, the stream takes every block. -/
theorem Serving.passedBlocks_eq
    (serving : Serving config .initServeWriteRequest past accept rest machine)
    (calm : machine.state ≠ .sendingError)
    (answered : machine.state ≠ .dataWritten) :
    passedBlocks rest = writtenBlocks rest := by
  apply MsmTftp.passedBlocks_eq
  intro step member
  obtain ⟨before, after, rfl⟩ := List.append_of_mem member
  cases passed : step.passedBlock with
  | none => exact (serving.busyCases (.inr rfl)).2.takes passed
  | some payload =>
      cases serving.answers passed with
      | reports errs => exact absurd errs calm
      | fails waits => exact absurd waits answered
      | saves waits => exact absurd waits answered
      | acknowledges takes => exact takes

theorem BusyCases.good_of_takes {next : Machine} {input : Input}
    {effects : List Effect} (cases : BusyCases machine input effects next)
    {payload : Bytes}
    (passed : Step.passedBlock ⟨machine, input, effects, next⟩ = some payload)
    (takes : Step.Takes ⟨machine, input, effects, next⟩) :
    machine.state = .waitingForData ∧
      machine.data.fileStream.good = true := by
  rw [Step.Takes, passed] at takes
  cases cases with
  | @complete completion idle uses drives =>
      cases completion <;> cases takes
  | fire cases ongoing busy data_eq =>
      have written := cases.written
      have firing := cases.firing
      rw [takes] at written
      split at written
      · next taken =>
        rw [taken.1] at firing
        refine ⟨firing.of_writeData.1, ?_⟩
        by_contra bad
        simp [FileStream.write, bad] at taken
      · cases written

/-- The file stream takes nothing, or an error is recorded. -/
def SessionData.Refuses (data : SessionData) : Prop :=
  data.fileStream.good = false ∨ data.hasError = true

theorem refuses_of_closed {environment : Environment}
    {request : RequestReceived} {data : SessionData}
    (closed : (initServeWriteRequest environment request
      data).1.fileStream.isOpen = false) :
    (initServeWriteRequest environment request data).1.Refuses := by
  simp only [initServeWriteRequest, openWriteFile] at closed ⊢
  split at closed
  · split at closed
    · left
      simp only [openFileStream, FileStream.open] at closed ⊢
      split at closed
      · exact absurd closed (by simp)
      · next refused => simp [FileStream.good, refused]
    · exact .inr rfl
  · exact .inr rfl

theorem SessionData.Refuses.writeData {environment : Environment}
    {data : SessionData} (refuses : data.Refuses) :
    (writeData environment data).1.Refuses := by
  by_cases takes : data.fileStream.good = true ∧
      environment.acceptsWrite = true
  · rw [writeData_of_good takes.1 takes.2]
    exact refuses
  · exact .inr (writeData_of_failed takes).1

/-- On the write side of the table, nothing makes the stream take a block
again. -/
theorem Firing.refuses {data : SessionData} {source target : State}
    {event : Option EventKind} {action : Action} (environment : Environment)
    (happens : Option Event)
    (firing : Firing data source event action target)
    (busy : source.busy = true) (side : target.writeSide = true)
    (refuses : source.writeSide = true → data.Refuses) :
    (action.run environment happens data).1.Refuses := by
  by_cases writes : action = .writeData
  · subst writes
    have saves := refuses (by rw [firing.of_writeData.1]; rfl)
    exact saves.writeData
  · obtain ⟨before, stream, error, _⟩ :=
      firing.of_writeSide environment happens busy side writes
    rw [SessionData.Refuses, stream, error]
    exact refuses before

theorem Serving.reports_of_closed
    (serving : Serving config .initServeWriteRequest past accept rest machine)
    (closed : accept.after.data.fileStream.isOpen = false)
    (member : step ∈ rest) {payload : Bytes}
    (passed : step.passedBlock = some payload) :
    machine.state = .sendingError ∨ machine.state = .dataWritten := by
  obtain ⟨before, after, rfl⟩ := List.append_of_mem member
  obtain ⟨environment, request, _, start⟩ := serving.start (.inr rfl)
  have earlier := serving.before.1
  have refuses : step.before.state.writeSide = true →
      step.before.data.Refuses := by
    apply earlier.history_invariant (.inr rfl) (fun _ => True)
      (fun _ _ => trivial) fun _ machine =>
        machine.state.writeSide = true → machine.data.Refuses
    · intro _
      rw [start] at closed ⊢
      exact refuses_of_closed closed
    · intro _ machine input effects next _ busy refuses cases _ side
      cases cases with
      | @complete completion idle uses drives =>
          have refused := refuses side
          cases completion <;> exact refused
      | fire cases ongoing target data_eq =>
          rw [cases.state_eq] at side
          rw [data_eq]
          exact cases.firing.refuses _ _ busy side refuses
  have lost : ¬step.Takes := by
    intro takes
    obtain ⟨_, cases⟩ := serving.busyCases (.inr rfl)
    obtain ⟨waits, good⟩ := cases.good_of_takes passed takes
    have reachable : Reachable config step.before := ⟨_, earlier.run⟩
    have noError := reachable.clean (.inr waits)
    rcases refuses (by rw [waits]; rfl) with failed | error
    · simp [good] at failed
    · simp [noError] at error
  cases serving.answers passed with
  | reports errs => exact .inl errs
  | fails waits => exact .inr waits
  | saves waits => exact .inr waits
  | acknowledges takes => exact absurd takes lost

end Transfers

end MsmTftp
