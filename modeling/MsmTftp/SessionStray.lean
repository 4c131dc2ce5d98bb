import MsmTftp.SessionFiles
import MsmTftp.SessionReports

/-!
# What an upload does after a crossing

The row for old data takes a session that serves a write request to
`WaitingForAck`, and from the read side of the joint table nothing but `Reset`
brings it back.  The file is not open for reading there, so that the session
has little to send: the ACK it holds, one empty block if the client answers
that ACK, and an error packet.
-/

namespace MsmTftp

open CellBuffer TransitionSystem

/-- The file is not open for reading. -/
structure SessionData.WriteOnly (data : SessionData) : Prop where
  unreadable : data.fileStream.readable = false
  inRange : data.InRange

/-- The block formed from a file that is not open for reading is sent. -/
def SessionData.HoldsEmptyBlock (data : SessionData) : Prop :=
  data.lastSentBlock = 1 ∧ data.lastBlockSize = 0 ∧
    data.outgoing = Packet.dataPacket 1 []

/-- What holds on the read side after a crossing with `number` saved blocks. -/
def StrayRole (number : Nat) (data : SessionData) : State → Prop
  | .dataRead => data.hasError = false → data.HoldsEmptyBlock
  | .sendingData | .waitingForAck =>
      data.lastSentBlock = 0 ∧
          data.outgoing = Packet.ackPacket (UInt16.ofNat number) ∨
        data.HoldsEmptyBlock
  | .sendingError => Packet.opCode data.outgoing = .error
  | _ => False

/-- What holds while a write request is served: blocks are saved, or the
session has crossed to the read side. -/
inductive UploadStage (data : SessionData) (state : State) : Prop
  | saves (role : WriteRole data state) (unsent : data.lastSentBlock = 0)
  | strays {number : Nat} (role : StrayRole number data state)

/-- The packets a session sends at most after a crossing: three times the ACK,
four times the empty block, and an error packet. -/
def SessionData.strayLeft (data : SessionData) : State → Nat
  | .dataRead => if data.hasError then 1 else 5
  | .sendingData | .waitingForAck =>
      3 - data.resendCount +
        match data.lastSentBlock with
        | 0 => 5
        | _ => 1
  | _ => 0

/-- The packets that are sent after a crossing with `number` saved blocks. -/
def StrayPacket (number : Nat) (packet : Bytes) : Prop :=
  packet = Packet.ackPacket (UInt16.ofNat number) ∨
    packet = Packet.dataPacket 1 [] ∨ Packet.opCode packet = .error

/-- What a session has done since a crossing with `number` saved blocks. -/
structure Strayed (number : Nat) (history : List Step) (machine : Machine) :
    Prop where
  writeOnly : machine.data.WriteOnly
  role : StrayRole number machine.data machine.state
  written : writtenBlocks history = []
  sends : (sentPackets history).length +
    machine.data.strayLeft machine.state ≤ 8
  packets : ∀ sent ∈ sentPackets history, StrayPacket number sent.1

section Roles

variable {number : Nat} {data : SessionData} {source target state : State}
  {event : Option EventKind} {action : Action} {environment : Environment}
  {happens : Option Event}

theorem SessionData.WriteOnly.start (writeOnly : data.WriteOnly)
    (completion : Completion) : (completion.start data).1.WriteOnly := by
  obtain ⟨unreadable, inRange⟩ := writeOnly
  cases completion <;>
    exact ⟨unreadable, inRange.blockSize, inRange.timeOut,
      inRange.transferSize⟩

theorem SessionData.WriteOnly.run (writeOnly : data.WriteOnly)
    (environment : Environment) (happens : Option Event)
    (ongoing : action ≠ .reset) (other : action ≠ .initServeReadRequest) :
    (action.run environment happens data).1.WriteOnly := by
  refine ⟨?_, writeOnly.inRange.run environment happens ongoing⟩
  cases streamCases environment happens data action with
  | keeps isOpen readable => rw [readable, writeOnly.unreadable]
  | opens isOpen serves readable => simpa [other] using readable
  | closes isOpen readable => exact readable

theorem SessionData.HoldsEmptyBlock.hasMoreToSend
    (holds : data.HoldsEmptyBlock) (inRange : data.InRange) :
    data.hasMoreToSend = false := by
  have positive := inRange.blockSize.1
  obtain ⟨count, empty, _⟩ := holds
  simp only [SessionData.hasMoreToSend, count, empty, Bool.or_eq_false_iff,
    beq_eq_false_iff_ne]
  omega

/-- The first block of a file that is not readable is empty. -/
theorem SessionData.WriteOnly.holdsEmptyBlock (writeOnly : data.WriteOnly)
    (unsent : data.lastSentBlock = 0)
    (noError : (formDataPacket environment data).hasError = false) :
    (formDataPacket environment data).HoldsEmptyBlock := by
  have nothing : data.nextBlock environment = [] := by
    rcases nextBlock_infix data environment with nothing | ⟨readable, _⟩
    · exact nothing
    · rw [writeOnly.unreadable] at readable
      cases readable
  cases bad : (data.streamAfterRead environment).bad with
  | true =>
      rw [formDataPacket_of_bad bad] at noError
      cases noError
  | false =>
      have formed := formDataPacket_of_not_bad bad
      rw [nothing, unsent] at formed
      have outgoing := outgoing_formDataPacket bad
      rw [nothing, unsent] at outgoing
      exact ⟨by rw [formed], by rw [formed]; rfl, outgoing⟩

theorem StrayRole.start (completion : Completion) :
    StrayRole number (completion.start data).1 state ↔
      StrayRole number data state := by
  cases completion <;> exact Iff.rfl

theorem SessionData.strayLeft_le (data : SessionData) (state : State) :
    data.strayLeft state ≤ 8 := by
  cases state <;> simp only [strayLeft] <;> first | omega | split <;> omega

theorem strayLeft_start (completion : Completion) :
    (completion.start data).1.strayLeft state = data.strayLeft state := by
  cases completion <;> rfl

/-- Rows other than `Reset` keep the role after a crossing. -/
theorem StrayRole.fire (role : StrayRole number data source)
    (environment : Environment) (happens : Option Event)
    (writeOnly : data.WriteOnly)
    (firing : Firing data source event action target)
    (ongoing : action ≠ .reset) :
    StrayRole number (action.run environment happens data).1 target := by
  cases firing with
  | blockRead noError => exact .inr (role noError)
  | readFailed error => exact opCode_formErrorPacketWith _
  | dataSent => exact role
  | resendData retry => exact role
  | notAck agreed other => exact opCode_formErrorPacketWith _
  | oldAck ignored => exact role
  | nextBlock agreed received current more =>
      rcases role with ⟨unsent, _⟩ | holds
      · exact writeOnly.holdsEmptyBlock unsent
      · rw [holds.hasMoreToSend writeOnly.inRange] at more
        cases more
  | finish final => exact absurd rfl ongoing
  | giveUpRead exhausted => exact absurd rfl ongoing
  | errorSent => exact absurd rfl ongoing
  | _ => exact role.elim

/-- What a row sends is taken from what is left. -/
theorem StrayRole.sends_le (role : StrayRole number data source)
    (environment : Environment) (happens : Option Event)
    (writeOnly : data.WriteOnly)
    (firing : Firing data source event action target)
    (ongoing : action ≠ .reset) :
    (if target.operation = some .send then 1 else 0) +
        (action.run environment happens data).1.strayLeft target ≤
      data.strayLeft source := by
  cases firing with
  | blockRead noError =>
      obtain ⟨count, _, _⟩ := role noError
      simp [SessionData.strayLeft, State.operation, Action.run, resetTimeOut,
        noError, count]
  | readFailed error =>
      simp [SessionData.strayLeft, State.operation, error]
  | dataSent =>
      simp [SessionData.strayLeft, State.operation, Action.run]
  | resendData retry =>
      have below : data.resendCount < 3 := of_decide_eq_true retry
      simp only [SessionData.strayLeft, State.operation, Action.run,
        countTimeOut, if_true]
      omega
  | notAck agreed other =>
      simp only [SessionData.strayLeft, State.operation, if_true]
      split <;> omega
  | oldAck ignored =>
      simp [SessionData.strayLeft, State.operation, Action.run]
  | nextBlock agreed received current more =>
      rcases role with ⟨unsent, _⟩ | holds
      · simp only [SessionData.strayLeft, State.operation, unsent,
          reduceCtorEq, if_false]
        split <;> omega
      · rw [holds.hasMoreToSend writeOnly.inRange] at more
        cases more
  | finish final => exact absurd rfl ongoing
  | giveUpRead exhausted => exact absurd rfl ongoing
  | errorSent => exact absurd rfl ongoing
  | _ => exact role.elim

theorem StrayRole.packet (role : StrayRole number data state)
    (sends : state.operation = some .send) :
    StrayPacket number data.outgoing := by
  cases state with
  | sendingData =>
      rcases role with ⟨_, ack⟩ | ⟨_, _, block⟩
      · exact .inl ack
      · exact .inr (.inl block)
  | sendingError => exact .inr (.inr role)
  | sendingAck => exact role.elim
  | _ => simp [State.operation] at sends

theorem WriteRole.unsent (role : WriteRole data source)
    (firing : Firing data source event action target)
    (ongoing : action ≠ .reset) :
    (action.run environment happens data).1.lastSentBlock =
      data.lastSentBlock := by
  have kept := run_keepsSession environment happens data ongoing
  apply kept.counters.sent
  · rintro rfl
    cases firing <;> exact role.elim
  · rintro rfl
    cases firing with
    | announceOptions options => exact role.elim

theorem WriteRole.crosses (role : WriteRole data source)
    (unsent : data.lastSentBlock = 0)
    (firing : Firing data source event action .waitingForAck) :
    StrayRole data.lastSavedBlock
      (action.run environment happens data).1 .waitingForAck := by
  cases firing with
  | oldData ignored => exact .inl ⟨unsent, role⟩
  | dataSent => exact role.elim
  | oldAck ignored => exact role.elim

theorem UploadStage.fire (stage : UploadStage data source)
    (writeOnly : data.WriteOnly)
    (firing : Firing data source event action target)
    (ongoing : action ≠ .reset) :
    UploadStage (action.run environment happens data).1 target := by
  cases stage with
  | strays role => exact .strays (role.fire _ _ writeOnly firing ongoing)
  | saves role unsent =>
      by_cases stays : target = .waitingForAck
      · subst stays
        exact .strays (role.crosses unsent firing)
      · exact .saves (role.fire firing ongoing stays)
          ((role.unsent firing ongoing).trans unsent)

theorem StrayRole.ne_accepting (role : StrayRole number data state) :
    state ≠ .accepting := by
  rintro rfl
  exact role.elim

theorem UploadStage.ne_accepting (stage : UploadStage data state) :
    state ≠ .accepting := by
  cases stage with
  | saves role unsent => exact role.ne_accepting
  | strays role => exact role.ne_accepting

theorem UploadStage.role_of_waitingForData
    (stage : UploadStage data .waitingForData) :
    WriteRole data .waitingForData ∧ data.lastSentBlock = 0 := by
  cases stage with
  | saves role unsent => exact ⟨role, unsent⟩
  | strays role => exact role.elim

end Roles

section Steps

variable {number : Nat} {machine next : Machine} {input : Input}
  {effects : List Effect}

theorem BusyCases.writeOnly (cases : BusyCases machine input effects next)
    (writeOnly : machine.data.WriteOnly)
    (other : machine.state ≠ .accepting) : next.data.WriteOnly := by
  cases cases with
  | @complete completion idle uses drives =>
      exact writeOnly.start completion
  | fire cases ongoing busy data_eq =>
      rw [data_eq]
      exact writeOnly.run _ _ ongoing (cases.firing.ne_initServe other).1

theorem BusyCases.uploadStage (cases : BusyCases machine input effects next)
    (writeOnly : machine.data.WriteOnly)
    (stage : UploadStage machine.data machine.state) :
    UploadStage next.data next.state := by
  cases cases with
  | @complete completion idle uses drives =>
      cases stage with
      | saves role unsent =>
          refine .saves ((WriteRole.start completion).mpr role) ?_
          cases completion <;> exact unsent
      | strays role => exact .strays ((StrayRole.start completion).mpr role)
  | fire cases ongoing busy data_eq =>
      rw [data_eq, cases.state_eq]
      exact stage.fire writeOnly cases.firing ongoing

/-- After a crossing a step sends what is left, and writes nothing. -/
theorem BusyCases.strayRole (cases : BusyCases machine input effects next)
    (writeOnly : machine.data.WriteOnly)
    (role : StrayRole number machine.data machine.state) :
    StrayRole number next.data next.state ∧
      effects.filterMap Effect.written = [] ∧
      (effects.filterMap Effect.packet).length +
          next.data.strayLeft next.state ≤
        machine.data.strayLeft machine.state ∧
      ∀ sent ∈ effects.filterMap Effect.packet,
        StrayPacket number sent.1 := by
  cases cases with
  | @complete completion idle uses drives =>
      refine ⟨(StrayRole.start completion).mpr role, ?_, ?_, ?_⟩
      · cases completion <;> rfl
      · rw [strayLeft_start]
        cases completion <;> exact (Nat.zero_add _).le
      · cases completion <;> simp [Completion.start, Effect.packet]
  | fire cases ongoing busy data_eq =>
      rename_i row environment event _
      have acted := role.fire environment event writeOnly cases.firing ongoing
      have left :=
        role.sends_le environment event writeOnly cases.firing ongoing
      rw [data_eq, cases.state_eq, cases.packets]
      refine ⟨acted, ?_, ?_, ?_⟩
      · rw [cases.written, if_neg]
        rintro ⟨writes, _⟩
        have firing := cases.firing
        rw [writes] at firing
        rw [firing.of_writeData.1] at role
        exact role
      · rw [apply_ite List.length]
        exact left
      · intro sent member
        split at member
        · next sends =>
          rw [List.mem_singleton.mp member]
          exact acted.packet sends
        · cases member

/-- The packet of a stranger, or an old block, takes an upload to the read
side, and nothing is sent for it. -/
theorem BusyCases.crosses (cases : BusyCases machine input effects next)
    (strays : machine.Strays)
    (stage : UploadStage machine.data machine.state)
    (crosses : next.state = .waitingForAck) :
    StrayRole machine.data.lastSavedBlock next.data next.state ∧
      effects.filterMap Effect.written = [] ∧
        effects.filterMap Effect.packet = [] := by
  obtain ⟨waits, running, _⟩ := strays
  rw [waits] at stage
  obtain ⟨role, unsent⟩ := stage.role_of_waitingForData
  cases cases with
  | complete idle uses drives => simp [idle] at running
  | fire cases ongoing busy data_eq =>
      have firing := cases.firing
      rw [cases.state_eq] at crosses
      rw [waits, crosses] at firing
      rw [data_eq, cases.state_eq, cases.packets, cases.written, crosses]
      refine ⟨role.crosses unsent firing, if_neg ?_, rfl⟩
      rintro ⟨writes, _⟩
      rw [writes] at firing
      have target := firing.of_writeData.2.2.1
      cases target

theorem Strayed.step {history : List Step}
    (strayed : Strayed number history machine)
    (cases : BusyCases machine input effects next) :
    Strayed number (history ++ [⟨machine, input, effects, next⟩]) next := by
  obtain ⟨writeOnly, role, written, counted, packets⟩ := strayed
  obtain ⟨kept, quiet, sends, allowed⟩ := cases.strayRole writeOnly role
  refine ⟨cases.writeOnly writeOnly role.ne_accepting, kept, ?_, ?_, ?_⟩
  · rw [writtenBlocks_concat, written, quiet, List.append_nil]
  · rw [sentPackets_concat, List.length_append, Nat.add_assoc]
    exact (Nat.add_le_add_left sends _).trans counted
  · rw [sentPackets_concat]
    exact List.forall_mem_append.mpr ⟨packets, allowed⟩

end Steps

section Transfers

variable {config : Config} {past before after rest : List Step}
  {accept crossing : Step} {machine : Machine}

theorem Serving.uploadStage
    (serving : Serving config .initServeWriteRequest past accept rest
      machine) :
    machine.data.WriteOnly ∧ UploadStage machine.data machine.state := by
  obtain ⟨environment, request, pristine, start⟩ := serving.start (.inr rfl)
  apply serving.history_invariant (.inr rfl) (fun _ => True)
    (fun _ _ => trivial) fun _ machine =>
      machine.data.WriteOnly ∧ UploadStage machine.data machine.state
  · have blank : accept.before.data.WriteOnly :=
      ⟨by rw [pristine]; rfl, pristine.inRange⟩
    refine ⟨?_, .saves ?_ (serving.counters_start (.inr rfl)).1⟩
    · rw [start]
      exact blank.run environment _ (by decide) (by decide)
    · rw [start]
      trivial
  · rintro _ machine _ _ next _ _ ⟨writeOnly, stage⟩ cases _
    exact ⟨cases.writeOnly writeOnly stage.ne_accepting,
      cases.uploadStage writeOnly stage⟩

end Transfers

/-- An upload that processes a packet of a stranger or an old block in
`WaitingForData` writes nothing more before the next `Reset`.  It sends eight
packets at most, however many it gets: the ACK of the block it saved last, an
empty first block, or an ERROR. -/
theorem strayed_upload_contained (config : Config) (past : List Step)
    (accept : Step) (before : List Step) (crossing : Step)
    (after : List Step) (machine : Machine)
    (serving : Serving config .initServeWriteRequest past accept
      (before ++ crossing :: after) machine)
    (strays : Machine.Strays crossing.before) :
    writtenBlocks (crossing :: after) = [] ∧
      (sentPackets (crossing :: after)).length ≤ 8 ∧
      ∀ sent ∈ sentPackets (crossing :: after),
        StrayPacket crossing.before.data.lastSavedBlock sent.1 := by
  obtain ⟨wellFormed, admitted⟩ :=
    serving.wellFormed_of_mem (List.mem_append_right _ List.mem_cons_self)
  obtain ⟨_, cases⟩ := serving.busyCases (.inr rfl)
  obtain ⟨writeOnly, stage⟩ := serving.before.1.uploadStage
  obtain ⟨crossed, unwritten, silent⟩ :=
    cases.crosses strays stage (strays.crosses wellFormed admitted)
  have strayed :
      Strayed crossing.before.data.lastSavedBlock after machine := by
    apply serving.later_invariant (.inr rfl)
      (Strayed crossing.before.data.lastSavedBlock)
    · exact ⟨cases.writeOnly writeOnly stage.ne_accepting, crossed, rfl,
        (Nat.zero_add _).trans_le (crossing.after.data.strayLeft_le _),
        by simp [sentPackets]⟩
    · exact fun _ _ _ _ _ _ strayed cases => strayed.step cases
  have blocks : writtenBlocks (crossing :: after) = writtenBlocks after := by
    simp [writtenBlocks, unwritten]
  have sends : sentPackets (crossing :: after) = sentPackets after := by
    simp [sentPackets, silent]
  rw [blocks, sends]
  exact ⟨strayed.written, (Nat.le_add_right _ _).trans strayed.sends,
    strayed.packets⟩

/-- A repeated block takes an upload to the read side, where it sends the
empty block. -/
theorem repeated_block_contained :
    ∃ past accept before, ∃ crossing : Step, ∃ after machine,
      Serving .loopback .initServeWriteRequest past accept
        (before ++ crossing :: after) machine ∧
      Machine.Strays crossing.before ∧ machine.state = .sendingData ∧
        writtenBlocks (crossing :: after) = [] ∧
        (sentPackets (crossing :: after)).length ≤ 8 ∧
        ∀ sent ∈ sentPackets (crossing :: after),
          StrayPacket crossing.before.data.lastSavedBlock sent.1 := by
  obtain ⟨past, accept, rest, machine, serving, passes⟩ :=
    exists_serving_of_converse .initServeWriteRequest
      [(.accepted .client (requestOf .writeRequest), {}), (.sent false, {}),
        (.received .client ⟨Packet.dataPacket 1 [7], by decide⟩, {}),
        (.sent false, {}),
        (.received .client ⟨Packet.dataPacket 1 [7], by decide⟩, {}),
        (.received .client (ackOf 0), {})]
      (fun _ rest machine => decide (machine.state = .sendingData) &&
        rest.any fun step => decide (Machine.Strays step.before))
      (by decide +kernel)
  simp only [Bool.and_eq_true, decide_eq_true_eq, List.any_eq_true] at passes
  obtain ⟨sends, crossing, member, strays⟩ := passes
  obtain ⟨before, after, rfl⟩ := List.append_of_mem member
  exact ⟨past, accept, before, crossing, after, machine, serving, strays,
    sends, strayed_upload_contained .loopback past accept before crossing after
      machine serving strays⟩

end MsmTftp
