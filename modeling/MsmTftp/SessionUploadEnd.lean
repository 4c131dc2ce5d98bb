import MsmTftp.SessionUpload

/-!
# The end of an upload

A block shorter than the agreed block size is the last one of an upload.
`WriteData` records the size of every block it saves, as `FormDataPacket` does
for the blocks of a download, but no guard of the write request table reads
it.  A block of any size is saved, also behind the last one.  A repeat of the
last block leads to `WaitingForAck`, where the next repeat is refused.
-/

namespace MsmTftp

open CellBuffer TransitionSystem TransferBlocks

/-- A new block of the agreed endpoint is about to be processed. -/
structure Machine.AcceptsBlock (machine : Machine) : Prop where
  waits : machine.state = .waitingForData
  running : machine.tasks = [.process .packetReceived]
  agreed : machine.data.fromAgreedEndpoint = true
  received : machine.data.hasDataReceived = true
  new : machine.data.isOldData = false

/-- The new block is longer than the agreed block size, or follows a shorter
one. -/
def Machine.Overruns (machine : Machine) : Prop :=
  machine.AcceptsBlock ∧
    (machine.data.agreedBlockSize <
        machine.data.receivedPacket - HeaderView.size ∨
      1 ≤ machine.data.lastSavedBlock ∧
        machine.data.lastBlockSize < machine.data.agreedBlockSize)

/-- The stream takes the bytes of a write in this step. -/
def Step.takesBytes (step : Step) : Bool :=
  match step.input with
  | .fire _ environment =>
      step.before.data.fileStream.good && environment.acceptsWrite
  | _ => false

/-- The step writes a block that is shorter than the agreed block size. -/
def Step.WritesShort (step : Step) (size : Nat) : Prop :=
  ∃ block ∈ step.outputs.filterMap Effect.written, block.length < size

/-- A DATA packet of the agreed endpoint with this number is about to be
processed. -/
structure Machine.ReceivesBlock (machine : Machine) (number : UInt16) :
    Prop where
  running : machine.tasks = [.process .packetReceived]
  received : machine.data.hasDataReceived = true
  number : machine.data.receivedWord = number

/-- The steps behind the last block of an upload, which has this number.
Nothing more is written.  A repeat of the last block is answered by its ACK, if
at all.  Any other DATA packet is answered by an ERROR, if at all, and neither
this step nor a later one acknowledges it. -/
structure Concluded (number : UInt16) (history : List Step) : Prop where
  unchanged : ∀ step ∈ history, step.outputs.filterMap Effect.written = []
  repeated : ∀ step ∈ history, (Transition.before step).ReceivesBlock number →
    ∀ sent ∈ step.outputs.filterMap Effect.packet,
      sent.1 = Packet.ackPacket number
  refused : ∀ between (step : Step) later other,
    history = between ++ step :: later → other ≠ number →
      step.before.ReceivesBlock other →
        (∀ sent ∈ step.outputs.filterMap Effect.packet,
          Packet.opCode sent.1 = .error) ∧
        ∀ further ∈ step :: later,
          ∀ sent ∈ further.outputs.filterMap Effect.packet,
            sent.1 ≠ Packet.ackPacket other

/-- The blocks written are those of a file in transfers of the given block
size, and the upload ends with the first shorter block. -/
structure EndRecognised (size : Nat) (history : List Step) : Prop where
  blocks : FullBlocks size (writtenBlocks history)
  ended : ∀ before (last : Step) after, history = before ++ last :: after →
    last.WritesShort size → Concluded last.before.data.receivedWord after

/-- In `WaitingForAck` a repeat of the last block is processed. -/
def RepeatsAstray (size : Nat) (history : List Step) : Prop :=
  ∃ before after, ∃ last step : Step,
    history = before ++ last :: after ∧ last.WritesShort size ∧
      step ∈ after ∧ step.before.state = .waitingForAck ∧
        step.before.ReceivesBlock last.before.data.receivedWord

/-- The block size was agreed on, and while blocks are saved the session knows
the size of the last one. -/
structure Tracks (size : Nat) (history : List Step) (machine : Machine) :
    Prop where
  blockSize : machine.data.agreedBlockSize = size
  last : machine.state.writeSide = true →
    writtenBlocks history = [] ∧ machine.data.lastSavedBlock = 0 ∨
      ∃ block, (writtenBlocks history).getLast? = some block ∧
        machine.data.lastBlockSize = block.length ∧
          1 ≤ machine.data.lastSavedBlock

theorem Machine.AcceptsBlock.writeSide {machine : Machine}
    (accepts : machine.AcceptsBlock) : machine.state.writeSide = true := by
  rw [accepts.waits]
  rfl

section Steps

variable {data : SessionData} {source target : State}
  {event : Option EventKind} {action : Action} {environment : Environment}

theorem payload_incoming_length (data : SessionData) :
    (Packet.payload data.incoming).length =
      data.receivedPacket - HeaderView.size := by
  simp [Packet.payload]

theorem Firing.of_acceptsBlock
    (firing : Firing data .waitingForData (some .packetReceived) action target)
    (agreed : data.fromAgreedEndpoint = true)
    (received : data.hasDataReceived = true) (new : data.isOldData = false) :
    action = .writeData ∧ target = .dataWritten := by
  cases firing <;> simp_all

theorem Firing.agreed_of_writeData
    (firing : Firing data source event .writeData target) :
    data.fromAgreedEndpoint = true := by
  cases firing with
  | newData agreed received new => exact agreed

theorem Firing.of_data
    (firing : Firing data source (some .packetReceived) action target)
    (received : data.hasDataReceived = true)
    (sends : target.operation = some .send) :
    action = .formProtocolErrorPacket := by
  cases firing <;> simp_all [State.operation]

theorem Firing.source_of_received
    (firing : Firing data source (some .packetReceived) action target) :
    source = .waitingForData ∨ source = .waitingForAck := by
  cases firing <;> simp

/-- In `WaitingForAck` every DATA packet of the agreed endpoint is refused. -/
theorem Firing.of_data_astray
    (firing : Firing data .waitingForAck (some .packetReceived) action target)
    (received : data.hasDataReceived = true) :
    action = .formProtocolErrorPacket ∧ target = .sendingError := by
  simp only [SessionData.hasDataReceived, Bool.and_eq_true,
    beq_iff_eq] at received
  obtain ⟨⟨_, opcode⟩, agreed⟩ := received
  have noAck : data.hasAckReceived = false := by
    simp [SessionData.hasAckReceived, opcode, OpCode.data,
      OpCode.acknowledgment]
  have noError : data.hasErrReceived = false := by
    simp [SessionData.hasErrReceived, opcode, OpCode.data, OpCode.error]
  cases firing with
  | notAck agreed other => exact ⟨rfl, rfl⟩
  | oldAck ignored =>
      simp [SessionData.fromAgreedEndpoint, agreed, noAck] at ignored
  | nextBlock agreed received current more => simp [noAck] at received
  | finish final => simp [noAck, noError] at final

/-- What a transfer remembers of its blocks changes only when a block is
saved. -/
theorem Firing.keeps_sizes (environment : Environment)
    (happens : Option Event)
    (firing : Firing data source event action target)
    (ongoing : action ≠ .reset) (other : action ≠ .writeData)
    (busy : source.busy = true) :
    (action.run environment happens data).1.agreedBlockSize =
        data.agreedBlockSize ∧
      (target.writeSide = true → source.writeSide = true ∧
        (action.run environment happens data).1.lastBlockSize =
          data.lastBlockSize ∧
        (action.run environment happens data).1.lastSavedBlock =
          data.lastSavedBlock) := by
  obtain ⟨reads, writes⟩ :=
    firing.ne_initServe (State.ne_accepting_of_busy busy)
  have kept := run_keepsTransfer environment happens data ongoing reads writes
  refine ⟨kept.blockSize, fun stays => ?_⟩
  -- The rows that form packets of a download leave the write side.
  have same : source.writeSide = true ∧ action ≠ .formDataPacket ∧
      action ≠ .formOackPacket := by
    cases firing <;> simp_all [State.writeSide]
  exact ⟨same.1, kept.counters.size other same.2.1,
    kept.counters.saved other same.2.2⟩

end Steps

section Transfers

variable {config : Config} {size : Nat} {past rest history : List Step}
  {accept : Step} {machine next : Machine} {input : Input}
  {effects : List Effect}

/-- What a step of a transfer does to the file: nothing, or it saves the new
block. -/
inductive BlockCases (machine : Machine) (input : Input)
    (effects : List Effect) (next : Machine) : Prop
  | keeps (written : effects.filterMap Effect.written = [])
      (blockSize : next.data.agreedBlockSize = machine.data.agreedBlockSize)
      (sizes : next.state.writeSide = true → machine.state.writeSide = true ∧
        next.data.lastBlockSize = machine.data.lastBlockSize ∧
          next.data.lastSavedBlock = machine.data.lastSavedBlock)
      (refused : machine.AcceptsBlock →
        Step.takesBytes ⟨machine, input, effects, next⟩ = false)
  | saves (accepts : machine.AcceptsBlock)
      (takes : Step.takesBytes ⟨machine, input, effects, next⟩ = true)
      (written : effects.filterMap Effect.written =
        [Packet.payload machine.data.incoming])
      (saved : next.data = machine.data.saved)

/-- The row for a new block saves it, if the stream takes it. -/
theorem FireCases.blockCases {row : Row} {environment : Environment}
    {happens : Option Event} {exitEffects : List Effect}
    (cases : FireCases machine row environment happens exitEffects effects
      next)
    (writes : row.action = .writeData)
    (data_eq : next.data =
      (row.action.run environment happens machine.data).1) :
    BlockCases machine (.fire row environment) effects next := by
  have firing := cases.firing
  have written := cases.written
  rw [writes] at firing data_eq
  obtain ⟨waits, kind, _, received, new⟩ := firing.of_writeData
  have running : machine.tasks = [.process .packetReceived] := by
    rw [cases.running, Event.eq_packetReceived kind]
    rfl
  cases taken : machine.data.fileStream.good && environment.acceptsWrite with
  | true =>
      obtain ⟨good, accepted⟩ := Bool.and_eq_true_iff.mp taken
      have success :
          (machine.data.fileStream.write environment.acceptsWrite).2 =
            true := by
        simp [FileStream.write, good, accepted]
      rw [if_pos ⟨writes, success⟩] at written
      apply BlockCases.saves
      · exact ⟨waits, running, firing.agreed_of_writeData, received, new⟩
      · exact taken
      · exact written
      · rw [data_eq, Action.run, writeData_of_good good accepted]
  | false =>
      have refused := writeData_of_refused taken
      have failure := (FileStream.write_refused taken).1
      apply BlockCases.keeps
      · simp [written, failure]
      · rw [data_eq, Action.run, refused]
      · intro _
        rw [data_eq, Action.run, refused, waits]
        exact ⟨rfl, rfl, rfl⟩
      · exact fun _ => taken

theorem BusyCases.blockCases (cases : BusyCases machine input effects next)
    (serving : machine.state.busy = true) :
    BlockCases machine input effects next := by
  cases cases with
  | @complete completion idle uses drives =>
      apply BlockCases.keeps
      · cases completion <;> rfl
      · cases completion <;> rfl
      · intro writes
        cases completion <;> exact ⟨writes, rfl, rfl⟩
      · exact fun _ => rfl
  | @fire row environment happens exitEffects effects next cases ongoing
      target data_eq =>
      by_cases writes : row.action = .writeData
      · exact cases.blockCases writes data_eq
      · obtain ⟨blockSize, sizes⟩ :=
          cases.firing.keeps_sizes environment happens ongoing writes serving
        apply BlockCases.keeps
        · simp [cases.written, writes]
        · rw [data_eq]
          exact blockSize
        · rw [data_eq, cases.state_eq]
          exact sizes
        · intro accepts
          have firing := cases.firing
          rw [cases.event_eq accepts.running, accepts.waits] at firing
          exact absurd (firing.of_acceptsBlock accepts.agreed
            accepts.received accepts.new).1 writes

theorem Tracks.step (tracks : Tracks size history machine)
    (serving : machine.state.busy = true)
    (cases : BusyCases machine input effects next) :
    Tracks size (history ++ [⟨machine, input, effects, next⟩]) next := by
  cases cases.blockCases serving with
  | keeps written blockSize sizes refused =>
      refine ⟨blockSize.trans tracks.blockSize, ?_⟩
      intro writes
      obtain ⟨before, last, number⟩ := sizes writes
      rw [writtenBlocks_concat, written, List.append_nil, last, number]
      exact tracks.last before
  | saves accepts takes written saved =>
      refine ⟨?_, fun _ => .inr ⟨Packet.payload machine.data.incoming, ?_, ?_,
        ?_⟩⟩
      · rw [saved]
        exact tracks.blockSize
      · rw [writtenBlocks_concat, written]
        simp
      · rw [saved, payload_incoming_length]
        rfl
      · have above := accepts.new
        simp only [SessionData.isOldData, decide_eq_false_iff_not] at above
        rw [saved]
        simp only [SessionData.saved]
        omega

theorem BusyCases.answers_data
    (cases : BusyCases machine input effects next)
    (running : machine.tasks = [.process .packetReceived])
    (received : machine.data.hasDataReceived = true) :
    ∀ sent ∈ effects.filterMap Effect.packet,
      Packet.opCode sent.1 = .error := by
  cases cases with
  | complete idle uses drives => simp [running] at idle
  | @fire row environment event exitEffects effects next cases ongoing target
      data_eq =>
      have firing := cases.firing
      rw [cases.event_eq running] at firing
      rw [cases.packets]
      split
      · rename_i sends
        intro sent member
        rw [List.mem_singleton.mp member, firing.of_data received sends]
        exact opCode_formErrorPacketWith _
      · simp

/-- In `WaitingForAck` a DATA packet is answered by an ERROR. -/
theorem BusyCases.refuses_astray
    (cases : BusyCases machine input effects next)
    (astray : machine.state = .waitingForAck)
    (running : machine.tasks = [.process .packetReceived])
    (received : machine.data.hasDataReceived = true) :
    ∃ sent ∈ effects.filterMap Effect.packet,
      Packet.opCode sent.1 = .error := by
  cases cases with
  | complete idle uses drives => simp [running] at idle
  | @fire row environment event exitEffects effects next cases ongoing target
      data_eq =>
      have firing := cases.firing
      rw [cases.event_eq running, astray] at firing
      obtain ⟨refuses, errs⟩ := firing.of_data_astray received
      have sends : State.sendingError.operation = some .send := rfl
      rw [cases.packets, errs, if_pos sends, refuses]
      exact ⟨_, List.mem_singleton_self _, opCode_formErrorPacketWith _⟩

theorem BusyCases.ignores_old
    (cases : BusyCases machine input effects next)
    (waits : machine.state ≠ .waitingForAck)
    (running : machine.tasks = [.process .packetReceived])
    (received : machine.data.hasDataReceived = true)
    (old : machine.data.isOldData = true) :
    effects.filterMap Effect.packet = [] := by
  cases cases with
  | complete idle uses drives => simp [running] at idle
  | @fire row environment event exitEffects effects next cases ongoing target
      data_eq =>
      have firing := cases.firing
      rw [cases.event_eq running] at firing
      have here : machine.state = .waitingForData :=
        (firing.source_of_received).resolve_right waits
      rw [here] at firing
      rw [cases.packets, firing.target_of_ignored (.inr ⟨received, old⟩)]
      rfl

theorem Serving.tracks
    (serving : Serving config .initServeWriteRequest past accept rest
      machine) :
    Tracks accept.after.data.agreedBlockSize rest machine := by
  have unsaved := (serving.counters_start (.inr rfl)).2.1
  exact serving.history_invariant (.inr rfl) (fun _ => True)
    (fun _ _ => trivial) (Tracks accept.after.data.agreedBlockSize)
    ⟨rfl, fun _ => .inl ⟨rfl, unsaved⟩⟩
    fun _ _ _ _ _ _ busy tracks cases _ => tracks.step busy cases

/-- While no new block overruns, the blocks written are those of a file. -/
theorem Serving.fullBlocks
    (serving : Serving config .initServeWriteRequest past accept rest machine)
    (orderly : ∀ step ∈ rest, Machine.Overruns (Transition.before step) →
      Step.takesBytes step = false) :
    FullBlocks accept.after.data.agreedBlockSize (writtenBlocks rest) := by
  induction rest using List.reverseRecOn generalizing machine with
  | nil => exact fullBlocks_nil
  | append_singleton history step ih =>
      have earlier := serving.before.1
      have whole := ih earlier fun other member =>
        orderly other (List.mem_append_left _ member)
      have tracks := earlier.tracks
      obtain ⟨busy, cases⟩ := serving.busyCases (.inr rfl)
      rw [writtenBlocks_concat]
      cases cases.blockCases busy with
      | keeps written blockSize sizes refused =>
          rw [written, List.append_nil]
          exact whole
      | saves accepts takes written saved =>
          have within : ¬ step.before.Overruns := by
            intro overruns
            have refused := orderly step (by simp) overruns
            exact absurd (refused.symm.trans takes) (by decide)
          have sizes := fun wrong => within ⟨accepts, wrong⟩
          rw [tracks.blockSize] at sizes
          rw [written]
          apply whole.concat
          · intro block last
            rcases tracks.last accepts.writeSide with
              ⟨nothing, _⟩ | ⟨other, same, length, saved⟩
            · simp [nothing] at last
            · obtain rfl : other = block :=
                Option.some.inj (same.symm.trans last)
              have most := whole.bounded other (List.mem_of_getLast? last)
              have least : ¬ step.before.data.lastBlockSize <
                  accept.after.data.agreedBlockSize :=
                fun short => sizes (.inr ⟨saved, short⟩)
              omega
          · have bound : ¬ accept.after.data.agreedBlockSize <
                step.before.data.receivedPacket - HeaderView.size :=
              fun long => sizes (.inl long)
            rw [payload_incoming_length]
            exact Nat.not_lt.mp bound

theorem exists_writesShort {block : Bytes}
    (member : block ∈ writtenBlocks history) (short : block.length < size) :
    ∃ before, ∃ last : Step, ∃ after,
      history = before ++ last :: after ∧ last.WritesShort size := by
  obtain ⟨effect, inside, written⟩ := List.mem_filterMap.mp member
  obtain ⟨last, step, output⟩ := List.mem_flatMap.mp inside
  obtain ⟨before, after, rfl⟩ := List.append_of_mem step
  exact ⟨before, last, after, rfl, block,
    List.mem_filterMap.mpr ⟨effect, output, written⟩, short⟩

section Ends

variable {before after : List Step} {last : Step}

theorem Serving.unchanged
    (serving : Serving config .initServeWriteRequest past accept
      (before ++ last :: after) machine)
    (orderly : ∀ step ∈ before ++ last :: after,
      Machine.Overruns (Transition.before step) → Step.takesBytes step = false)
    (short : last.WritesShort accept.after.data.agreedBlockSize) :
    ∀ step ∈ after, step.outputs.filterMap Effect.written = [] := by
  intro step member
  obtain ⟨between, later, rfl⟩ := List.append_of_mem member
  rw [← List.cons_append, ← List.append_assoc] at serving orderly
  have earlier := serving.before.1
  have whole := earlier.fullBlocks fun other member =>
    orderly other (List.mem_append_left _ member)
  have tracks := earlier.tracks
  obtain ⟨busy, cases⟩ := serving.busyCases (.inr rfl)
  cases cases.blockCases busy with
  | keeps written blockSize sizes refused => exact written
  | saves accepts takes written saved =>
      obtain ⟨block, inside, short⟩ := short
      have member : block ∈ writtenBlocks (before ++ last :: between) := by
        simp [writtenBlocks, inside]
      have final := whole.getLast?_of_short member short
      have overruns : step.before.Overruns := by
        refine ⟨accepts, .inr ?_⟩
        rcases tracks.last accepts.writeSide with
          ⟨nothing, _⟩ | ⟨other, here, length, saved⟩
        · simp [nothing] at final
        · obtain rfl : other = block :=
            Option.some.inj (here.symm.trans final)
          rw [length, tracks.blockSize]
          exact ⟨saved, short⟩
      have refused := orderly step (by simp) overruns
      exact absurd (refused.symm.trans takes) (by decide)

theorem Serving.lastSavedBlock
    (serving : Serving config .initServeWriteRequest past accept
      (before ++ last :: after) machine)
    (short : last.WritesShort size)
    (unchanged : ∀ step ∈ after, step.outputs.filterMap Effect.written = []) :
    machine.data.lastSavedBlock = last.before.data.receivedWord.toNat := by
  have role := serving.before.1.uploadRole
  obtain ⟨busy, cases⟩ := serving.busyCases (.inr rfl)
  have saved : last.after.data.lastSavedBlock =
      last.before.data.receivedWord.toNat := by
    cases cases.blockCases busy with
    | keeps written blockSize sizes refused =>
        obtain ⟨block, member, _⟩ := short
        simp [written] at member
    | saves accepts takes written saved =>
        rw [saved]
        rfl
  have invariant := serving.later_invariant (.inr rfl)
    (fun history machine => UploadRole machine.data machine.state ∧
      ((∀ step ∈ history, step.outputs.filterMap Effect.written = []) →
        machine.data.lastSavedBlock = last.before.data.receivedWord.toNat))
    ⟨cases.uploadRole role, fun _ => saved⟩ (by
      rintro history machine input effects next _ ⟨role, kept⟩ cases
      refine ⟨cases.uploadRole role, fun unwritten => ?_⟩
      rw [cases.lastSavedBlock role (unwritten _ List.mem_concat_self)]
      exact kept fun step member =>
        unwritten step (List.mem_append_left _ member))
  exact invariant.2 unchanged

/-- Behind the last block only this block is acknowledged. -/
theorem Serving.acknowledges_last
    (serving : Serving config .initServeWriteRequest past accept
      (before ++ last :: after) machine)
    (short : last.WritesShort size)
    (unchanged : ∀ step ∈ after, step.outputs.filterMap Effect.written = [])
    {step : Step} (member : step ∈ after) {sent : Bytes × Endpoint}
    (isSent : sent ∈ step.outputs.filterMap Effect.packet)
    {number : UInt16} (acknowledges : sent.1 = Packet.ackPacket number) :
    number = last.before.data.receivedWord := by
  obtain ⟨between, later, rfl⟩ := List.append_of_mem member
  have stepped : Serving config .initServeWriteRequest past accept
      (before ++ last :: (between ++ [step])) step.after := by
    rw [← List.cons_append, ← List.append_assoc] at serving ⊢
    obtain ⟨earlier, admitted⟩ := serving.before
    exact earlier.extend (System.run_cons.mpr ⟨rfl, admitted, rfl⟩)
      fun other member => serving.ongoing other (by
        simp [List.mem_singleton.mp member])
  have number_eq := stepped.lastSavedBlock short fun other member =>
    unchanged other (by
      rcases List.mem_append.mp member with earlier | here
      · exact List.mem_append_left _ earlier
      · simp [List.mem_singleton.mp here])
  rw [← List.cons_append, ← List.append_assoc] at serving
  obtain ⟨_, cases⟩ := serving.busyCases (.inr rfl)
  obtain ⟨sends, outgoing⟩ := cases.packets isSent
  have ack := stepped.uploadRole.acknowledges sends
  rw [SessionData.Acknowledges, ← outgoing, acknowledges] at ack
  have words := congrArg Packet.word (ack (Packet.opCode_ackPacket _))
  rw [Packet.word_ackPacket, Packet.word_ackPacket, number_eq,
    UInt16.ofNat_toNat] at words
  exact words

/-- An upload whose stream takes no block too many, and that does not process a
repeat of its last block in `WaitingForAck`, is over with this block. -/
theorem Serving.concluded
    (serving : Serving config .initServeWriteRequest past accept
      (before ++ last :: after) machine)
    (orderly : ∀ step ∈ before ++ last :: after,
      Machine.Overruns (Transition.before step) → Step.takesBytes step = false)
    (straight : ¬ RepeatsAstray accept.after.data.agreedBlockSize
      (before ++ last :: after))
    (short : last.WritesShort accept.after.data.agreedBlockSize) :
    Concluded last.before.data.receivedWord after := by
  have unchanged := serving.unchanged orderly short
  refine ⟨unchanged, ?_, ?_⟩
  · rintro step member ⟨running, received, number⟩
    have waits : step.before.state ≠ .waitingForAck := fun astray =>
      straight ⟨before, after, last, step, rfl, short, member, astray,
        running, received, number⟩
    obtain ⟨between, later, rfl⟩ := List.append_of_mem member
    rw [← List.cons_append, ← List.append_assoc] at serving
    have kept := serving.before.1.lastSavedBlock short fun other inside =>
      unchanged other (List.mem_append_left _ inside)
    have old : step.before.data.isOldData = true := by
      simp [SessionData.isOldData, number, kept]
    obtain ⟨_, cases⟩ := serving.busyCases (.inr rfl)
    simp [cases.ignores_old waits running received old]
  · rintro between step later other rfl different ⟨running, received, _⟩
    constructor
    · rw [← List.cons_append, ← List.append_assoc] at serving
      exact (serving.busyCases (.inr rfl)).2.answers_data running received
    · intro further member sent isSent acknowledges
      exact different (serving.acknowledges_last short unchanged
        (List.mem_append_right _ member) isSent acknowledges)

end Ends

end Transfers

/-- The end of an upload is recognised exactly when the stream takes no new
block that is too long or follows a shorter one, and no repeat of the last
block is processed in `WaitingForAck`. -/
theorem end_recognised_iff (config : Config) (past : List Step)
    (accept : Step) (rest : List Step) (machine : Machine)
    (serving : Serving config .initServeWriteRequest past accept rest
      machine) :
    EndRecognised accept.after.data.agreedBlockSize rest ↔
      (∀ step ∈ rest, Machine.Overruns (Transition.before step) →
        Step.takesBytes step = false) ∧
        ¬ RepeatsAstray accept.after.data.agreedBlockSize rest := by
  constructor
  · intro recognised
    refine ⟨?_, ?_⟩
    · intro step member overruns
      obtain ⟨before, after, rfl⟩ := List.append_of_mem member
      have tracks := serving.before.1.tracks
      obtain ⟨busy, cases⟩ := serving.busyCases (.inr rfl)
      cases cases.blockCases busy with
      | keeps written blockSize sizes refused => exact refused overruns.1
      | saves accepts takes written saved =>
          obtain ⟨_, long | ⟨number, short⟩⟩ := overruns
          · have inside : Packet.payload step.before.data.incoming ∈
                writtenBlocks (before ++ step :: after) := by
              simp [writtenBlocks, written]
            have bound := recognised.blocks.bounded _ inside
            rw [payload_incoming_length] at bound
            rw [tracks.blockSize] at long
            exact absurd long (Nat.not_lt.mpr bound)
          · rcases tracks.last accepts.writeSide with
              ⟨_, none⟩ | ⟨block, last, length, _⟩
            · omega
            · rw [length, tracks.blockSize] at short
              obtain ⟨first, final, rest, rfl, ends⟩ := exists_writesShort
                (List.mem_of_getLast? last) short
              have nothing := (recognised.ended first final
                (rest ++ step :: after) (by simp) ends).unchanged step
                  (by simp)
              rw [written] at nothing
              simp at nothing
    · rintro ⟨before, after, last, step, rfl, short, member, astray, again⟩
      obtain ⟨between, later, rfl⟩ := List.append_of_mem member
      have repeated := (recognised.ended before last _ rfl short).repeated
        step member again
      rw [← List.cons_append, ← List.append_assoc] at serving
      obtain ⟨_, cases⟩ := serving.busyCases (.inr rfl)
      obtain ⟨sent, isSent, error⟩ :=
        cases.refuses_astray astray again.running again.received
      rw [repeated sent isSent, Packet.opCode_ackPacket] at error
      exact absurd error (by decide)
  · rintro ⟨orderly, straight⟩
    refine ⟨serving.fullBlocks orderly, ?_⟩
    rintro before last after rfl short
    exact serving.concluded orderly straight short

section Examples

private instance (machine : Machine) : Decidable machine.Overruns :=
  decidable_of_iff
    ((machine.state = .waitingForData ∧
        machine.tasks = [.process .packetReceived] ∧
          machine.data.fromAgreedEndpoint = true ∧
            machine.data.hasDataReceived = true ∧
              machine.data.isOldData = false) ∧
      (machine.data.agreedBlockSize <
          machine.data.receivedPacket - HeaderView.size ∨
        1 ≤ machine.data.lastSavedBlock ∧
          machine.data.lastBlockSize < machine.data.agreedBlockSize))
    ⟨fun ⟨⟨waits, running, agreed, received, new⟩, wrong⟩ =>
        ⟨⟨waits, running, agreed, received, new⟩, wrong⟩,
      fun ⟨⟨waits, running, agreed, received, new⟩, wrong⟩ =>
        ⟨⟨waits, running, agreed, received, new⟩, wrong⟩⟩

/-- A full block of an upload. -/
private def fullBlock : Datagram where
  bytes := Packet.dataPacket 1 (List.replicate 512 7)
  fits := by decide +kernel

private def lastBlock : Datagram where
  bytes := Packet.dataPacket 2 [8]
  fits := by decide

/-- The end of an upload of 513 bytes is recognised.  Its last block is repeated
once, and then acknowledged again. -/
theorem full_and_short_block_recognised :
    ∃ past accept rest machine,
      Serving .loopback .initServeWriteRequest past accept rest machine ∧
        (writtenBlocks rest).map List.length = [512, 1] ∧
          machine.state = .sendingData ∧ EndRecognised 512 rest := by
  obtain ⟨past, accept, rest, machine, serving, passes⟩ :=
    exists_serving_of_converse .initServeWriteRequest
      [(.accepted .client (requestOf .writeRequest), {}), (.sent false, {}),
        (.received .client fullBlock, {}), (.sent false, {}),
        (.received .client lastBlock, {}), (.sent false, {}),
        (.received .client lastBlock, {}), (.receiveFailed, {})]
      (fun accept rest machine =>
        decide (accept.after.data.agreedBlockSize = 512 ∧
          (writtenBlocks rest).map List.length = [512, 1] ∧
            machine.state = .sendingData) &&
            rest.all fun step => decide (¬ Machine.Overruns step.before ∧
              ¬ (step.before.state = .waitingForAck ∧
                step.before.tasks = [.process .packetReceived])))
      (by decide +kernel)
  simp only [Bool.and_eq_true, decide_eq_true_eq, List.all_eq_true] at passes
  obtain ⟨⟨size, written, sends⟩, orderly⟩ := passes
  refine ⟨past, accept, rest, machine, serving, written, sends, ?_⟩
  rw [← size]
  apply (end_recognised_iff .loopback past accept rest machine serving).mpr
  refine ⟨fun step member overruns =>
    absurd overruns (orderly step member).1, ?_⟩
  rintro ⟨before, after, last, step, rfl, _, member, astray, again⟩
  exact (orderly step (by simp [member])).2 ⟨astray, again.running⟩

/-- A block that follows the last one of an upload is written to the file. -/
theorem block_after_last_written :
    ∃ past accept rest machine,
      Serving .loopback .initServeWriteRequest past accept rest machine ∧
        accept.after.data.agreedBlockSize = 512 ∧
          writtenBlocks rest = [[7], [8]] ∧ ¬ EndRecognised 512 rest := by
  obtain ⟨past, accept, rest, machine, serving, passes⟩ :=
    exists_serving_of_converse .initServeWriteRequest
      [(.accepted .client (requestOf .writeRequest), {}), (.sent false, {}),
        (.received .client ⟨Packet.dataPacket 1 [7], by decide⟩, {}),
        (.sent false, {}),
        (.received .client ⟨Packet.dataPacket 2 [8], by decide⟩, {})]
      (fun accept rest _ =>
        decide (accept.after.data.agreedBlockSize = 512 ∧
          writtenBlocks rest = [[7], [8]]))
      (by decide +kernel)
  obtain ⟨size, written⟩ := of_decide_eq_true passes
  refine ⟨past, accept, rest, machine, serving, size, written, ?_⟩
  intro recognised
  have full := recognised.blocks.full [7] (by simp [written])
  simp at full

end Examples

end MsmTftp
