import MsmTftp.SessionDownload

/-!
# Block numbers of long downloads

The block number of a DATA packet is the number of blocks sent, cut to 16
bits, while the guards on an ACK compare its number with the number of blocks
sent itself.  After 65536 blocks the ACK of the current packet passes for an
old one.
-/

namespace MsmTftp

open CellBuffer TransitionSystem TransferBlocks

/-- The agreed endpoint acknowledges the DATA packet that is outstanding. -/
structure Matches (machine : Machine) (datagram : Datagram) : Prop where
  waits : machine.state = .waitingForAck
  idle : machine.tasks = []
  outstanding : Packet.opCode machine.data.outgoing = .data
  short : datagram.bytes.length = 4
  opcode : Packet.opCode datagram.bytes = .acknowledgment
  number : Packet.word datagram.bytes = Packet.word machine.data.outgoing

/-- The handler of an ACK sends the next DATA packet and nothing else or,
after the last one, sends nothing and leads through `Reset` to
`Accepting`. -/
def TreatsAsCurrent (machine : Machine) (history : List Step)
    (next : Machine) : Prop :=
  if machine.data.hasMoreToSend = true then
    ∃ payload, sentPackets history =
      [(Packet.dataPacket (UInt16.ofNat (machine.data.lastSentBlock + 1))
        payload, machine.data.agreedRemoteEndpoint)]
  else
    sentPackets history = [] ∧ next.state = .accepting

/-- When the step reads a block, there is no input error. -/
def Step.readsCleanly (step : Step) : Bool :=
  match step.input with
  | .fire row environment =>
      row.action != .formDataPacket || environment.readError.isNone
  | _ => true

/-- In a download the badbit of the stream stays clear until an error is
recorded, which ends it. -/
def DownloadSound (data : SessionData) : State → Prop
  | .readRequestReceived => data.fileStream.bad = false
  | .dataRead => data.hasError = false → data.fileStream.bad = false
  | .sendingData | .waitingForAck =>
      data.fileStream.bad = false ∧ data.hasError = false
  | _ => True

section Soundness

variable {config : Config} {past rest : List Step} {accept : Step}
  {machine : Machine} {data : SessionData} {environment : Environment}

theorem bad_formDataPacket
    (noError : (formDataPacket environment data).hasError = false) :
    (formDataPacket environment data).fileStream.bad = false := by
  cases bad : (data.streamAfterRead environment).bad with
  | true =>
      rw [formDataPacket_of_bad bad] at noError
      simp [SessionData.hasError] at noError
  | false =>
      rw [formDataPacket_of_not_bad bad]
      exact bad

theorem DownloadSound.fire {source target : State} {event : Option EventKind}
    {action : Action} (sound : DownloadSound data source)
    (happens : Option Event) (role : ReadRole data source)
    (firing : Firing data source event action target)
    (ongoing : action ≠ .reset) :
    DownloadSound (action.run environment happens data).1 target := by
  cases firing with
  | firstBlock noError plain => exact bad_formDataPacket
  | announceOptions options => exact fun _ => sound
  | blockRead noError => exact ⟨sound noError, noError⟩
  | dataSent => exact sound
  | resendData retry => exact sound
  | oldAck ignored => exact sound
  | nextBlock agreed received current more => exact bad_formDataPacket
  | refuseRead error => trivial
  | readFailed error => trivial
  | notAck agreed other => trivial
  | finish final => exact absurd rfl ongoing
  | giveUpRead exhausted => exact absurd rfl ongoing
  | errorSent => exact absurd rfl ongoing
  | _ => exact role.elim

theorem DownloadSound.step {next : Machine} {input : Input}
    {effects : List Effect}
    (sound : DownloadSound machine.data machine.state)
    (role : ReadRole machine.data machine.state)
    (wellFormed : machine.WellFormed config)
    (stepped : machine.step input = some (next, effects))
    (ongoing : ¬ Step.Fires ⟨machine, input, effects, next⟩ .reset) :
    DownloadSound next.data next.state := by
  rcases wellFormed.complete_or_fire stepped role.ne_accepting with
    ⟨completion, rfl⟩ | ⟨row, environment, rfl⟩
  · cases stepCases stepped with
    | complete settled idle started => cases completion <;> exact sound
  · obtain ⟨event, exitEffects, cases⟩ := wellFormed.fireCases stepped
    have resets : row.action ≠ .reset := fun resets =>
      ongoing ⟨row, environment, rfl, resets⟩
    have acted : ReadRole
        (row.action.run environment event machine.data).1 row.target :=
      role.fire cases.firing resets
    rw [cases.state_eq, cases.data_eq acted.ne_accepting]
    exact sound.fire event role cases.firing resets

theorem bad_initServeReadRequest {request : RequestReceived}
    (clear : data.fileStream.bad = false) :
    (initServeReadRequest environment request data).1.fileStream.bad =
      false := by
  rw [initServeReadRequest_fileStream]
  have clear : (openDataSocket environment data).fileStream.bad = false :=
    clear
  generalize openDataSocket environment data = bound at clear ⊢
  simp only [openReadFile]
  split
  · split
    · rename_i path _
      obtain ⟨_, _, frame⟩ :=
        setTransferSize_frame environment bound request path
      rw [frame]
      simp only [openFileStream, FileStream.open]
      split
      · rfl
      · exact clear
    · exact clear
  · exact clear

theorem Serving.sound
    (serving : Serving config .initServeReadRequest past accept rest machine) :
    DownloadSound machine.data machine.state := by
  obtain ⟨environment, request, pristine, next_eq⟩ := serving.start (.inl rfl)
  rw [SessionData.Pristine] at pristine
  have sound : DownloadSound accept.after.data accept.after.state := by
    rw [next_eq]
    apply bad_initServeReadRequest
    rw [pristine]
    rfl
  have role : ReadRole accept.after.data accept.after.state := by
    rw [next_eq]
    trivial
  have invariant : machine.WellFormed config ∧
      ReadRole machine.data machine.state ∧
        DownloadSound machine.data machine.state := by
    apply serving.split.2.2.invariant_of
      (fun step => ¬ Step.Fires step .reset) serving.ongoing
      (fun machine => machine.WellFormed config ∧
        ReadRole machine.data machine.state ∧
          DownloadSound machine.data machine.state)
    · exact ⟨serving.wellFormed_after, role, sound⟩
    · rintro step ⟨wellFormed, role, sound⟩ admitted ongoing
      exact ⟨wellFormed.step admitted,
        (role.step wellFormed admitted ongoing).1,
        sound.step role wellFormed admitted ongoing⟩
  exact invariant.2.2

end Soundness

section Acknowledging

variable {config : Config} {past rest : List Step} {accept : Step}
  {machine next : Machine} {datagram : Datagram} {history : List Step}

/-- The number of the outstanding packet is the number of blocks sent, cut to
16 bits. -/
theorem Matches.toNat_word (ack : Matches machine datagram)
    (role : ReadRole machine.data machine.state) :
    (Packet.word datagram.bytes).toNat =
      machine.data.lastSentBlock % 65536 := by
  rw [ack.waits] at role
  rcases role with ⟨_, oack⟩ | ⟨_, payload, block⟩
  · have outstanding := ack.outstanding
    simp [oack, OpCode.data, OpCode.optionAcknowledgment] at outstanding
  · rw [ack.number, block, Packet.word_dataPacket, UInt16.toNat_ofNat']

theorem Matches.hasAckReceived (ack : Matches machine datagram)
    (role : ReadRole machine.data machine.state) :
    (machine.data.received machine.data.agreedRemoteEndpoint
      datagram).hasAckReceived = true := by
  refine (hasAckReceived_received _ datagram).mpr
    ⟨ack.short, ack.opcode, ?_⟩
  rw [ack.toNat_word role]
  exact Nat.mod_le _ _

/-- The ACK of the outstanding packet passes for an old one once the number of
blocks sent does not fit 16 bits. -/
theorem Matches.isOldAck (ack : Matches machine datagram)
    (role : ReadRole machine.data machine.state) :
    (machine.data.received machine.data.agreedRemoteEndpoint
      datagram).isOldAck = decide (65536 ≤ machine.data.lastSentBlock) := by
  rw [isOldAck_received _ datagram (by rw [ack.short]), ack.toNat_word role,
    decide_eq_decide]
  have bound := Nat.mod_lt machine.data.lastSentBlock
    (show 0 < 65536 by decide)
  constructor
  · intro old
    by_contra below
    rw [Nat.mod_eq_of_lt (by omega)] at old
    omega
  · omega

theorem Matches.ignored (ack : Matches machine datagram)
    (role : ReadRole machine.data machine.state)
    (wrapped : 65536 ≤ machine.data.lastSentBlock)
    (wellFormed : machine.WellFormed config)
    (handles : Handles machine
      (.received machine.data.agreedRemoteEndpoint datagram) history next) :
    sentPackets history = [] ∧ next.state = .waitingForAck := by
  have received := ack.hasAckReceived role
  have old := ack.isOldAck role
  rw [decide_eq_true wrapped] at old
  have calm := SessionData.hasErrReceived_of_hasAckReceived received
  have only : ∀ action target, Firing
      (machine.data.received machine.data.agreedRemoteEndpoint datagram)
        machine.state (some .packetReceived) action target →
          action = .none ∧ target = .waitingForAck := by
    intro action target firing
    rw [ack.waits] at firing
    cases firing <;> simp_all
  obtain ⟨rfl, nothing, _⟩ := handles.ignored wellFormed only
  exact ⟨nothing, rfl⟩

theorem Matches.not_current (ack : Matches machine datagram)
    (role : ReadRole machine.data machine.state)
    (wrapped : 65536 ≤ machine.data.lastSentBlock)
    (wellFormed : machine.WellFormed config)
    (handles : Handles machine
      (.received machine.data.agreedRemoteEndpoint datagram) history next) :
    ¬ TreatsAsCurrent machine history next := by
  intro treats
  obtain ⟨sent, waits⟩ := ack.ignored role wrapped wellFormed handles
  rw [TreatsAsCurrent, sent, waits] at treats
  split at treats <;> simp at treats

theorem Settles.of_dataRead {allowed : Action → Environment → Prop}
    {data : SessionData} {effects : List Effect}
    (settles : Settles allowed .dataRead data effects next) :
    data.hasError = false ∧
        effects = [.sendTo data.outgoing data.agreedRemoteEndpoint] ∨
      data.hasError = true ∧
        effects = [.sendTo (formErrorPacket data).outgoing
          data.agreedRemoteEndpoint] := by
  cases settles with
  | waits waits => simp [State.operation] at waits
  | passes environment permitted firing settles =>
      cases firing with
      | blockRead noError =>
          obtain ⟨rfl, _⟩ := settles.of_waits (by simp [State.operation])
          exact .inl ⟨noError, rfl⟩
      | readFailed error =>
          obtain ⟨rfl, _⟩ := settles.of_waits (by simp [State.operation])
          exact .inr ⟨error, rfl⟩

theorem Settles.sends_iff {allowed : Action → Environment → Prop}
    {data : SessionData} {environment : Environment} {effects : List Effect}
    (settles : Settles allowed .dataRead (formDataPacket environment data)
      effects next)
    (noError : data.hasError = false) :
    (∃ payload, effects.filterMap Effect.packet =
      [(Packet.dataPacket (UInt16.ofNat (data.lastSentBlock + 1)) payload,
        data.agreedRemoteEndpoint)]) ↔
      (data.streamAfterRead environment).bad = false := by
  cases bad : (data.streamAfterRead environment).bad with
  | true =>
      refine iff_of_false ?_ (by simp)
      rintro ⟨payload, sent⟩
      rcases settles.of_dataRead with ⟨noError, _⟩ | ⟨_, rfl⟩
      · rw [formDataPacket_of_bad bad] at noError
        simp [SessionData.hasError] at noError
      · simp only [List.filterMap_cons, Effect.packet, List.filterMap_nil,
          List.cons.injEq, Prod.mk.injEq] at sent
        have opcodes := congrArg Packet.opCode sent.1.1
        rw [formErrorPacket, opCode_formErrorPacketWith,
          Packet.opCode_dataPacket] at opcodes
        exact absurd opcodes (by decide)
  | false =>
      refine iff_of_true ?_ rfl
      have outgoing := outgoing_formDataPacket bad
      have formed := formDataPacket_of_not_bad bad
      rcases settles.of_dataRead with ⟨_, rfl⟩ | ⟨error, _⟩
      · refine ⟨data.nextBlock environment, ?_⟩
        rw [outgoing]
        simp [Effect.packet, formed]
      · rw [formed] at error
        have error : data.hasError = true := error
        simp [noError] at error

theorem Matches.finishes (ack : Matches machine datagram)
    (role : ReadRole machine.data machine.state)
    (below : machine.data.lastSentBlock < 65536)
    (last : machine.data.hasMoreToSend = false)
    (wellFormed : machine.WellFormed config)
    (handles : Handles machine
      (.received machine.data.agreedRemoteEndpoint datagram) history next) :
    TreatsAsCurrent machine history next := by
  obtain ⟨action, target, environment, exitEffects, effects, _, firing,
    exits, settles, outputs, _⟩ :=
      handles.received (fun _ _ => True) wellFormed (by simp [Step.Meets])
  rw [ack.waits] at firing
  have received := ack.hasAckReceived role
  have current := ack.isOldAck role
  rw [decide_eq_false (by omega)] at current
  have done : (machine.data.received machine.data.agreedRemoteEndpoint
      datagram).hasMoreToSend = false := last
  obtain ⟨rfl, rfl⟩ : action = .reset ∧ target = .resetted := by
    cases firing <;> simp_all
  obtain ⟨rfl, rfl⟩ := settles.of_resetted
  have acted : (Action.run environment (some .packetReceived)
      (machine.data.received machine.data.agreedRemoteEndpoint datagram)
        .reset).2.filterMap Effect.packet = [] :=
    run_filterMap (fun _ _ => rfl) (fun _ => rfl) rfl rfl rfl
  rw [TreatsAsCurrent, if_neg (by simp [last]), sentPackets, outputs,
    filterMap_after_exit rfl rfl exits, List.filterMap_append, acted,
    entry_packets]
  exact ⟨rfl, rfl⟩

theorem Matches.continues (ack : Matches machine datagram)
    (role : ReadRole machine.data machine.state)
    (noError : machine.data.hasError = false)
    (below : machine.data.lastSentBlock < 65536)
    (more : machine.data.hasMoreToSend = true)
    (allowed : Action → Environment → Prop)
    (wellFormed : machine.WellFormed config)
    (handles : Handles machine
      (.received machine.data.agreedRemoteEndpoint datagram) history next)
    (meets : ∀ step ∈ history, Step.Meets step allowed) :
    ∃ environment, allowed .formDataPacket environment ∧
      (∀ step ∈ history, ∀ row other, Transition.input step =
        .fire row other → row.action = .formDataPacket →
          other = environment) ∧
      (TreatsAsCurrent machine history next ↔
        (machine.data.streamAfterRead environment).bad = false) := by
  obtain ⟨action, target, environment, exitEffects, effects, permitted,
    firing, exits, settles, outputs, only⟩ :=
      handles.received allowed wellFormed meets
  rw [ack.waits] at firing
  have received := ack.hasAckReceived role
  have current := ack.isOldAck role
  rw [decide_eq_false (by omega)] at current
  have calm := SessionData.hasErrReceived_of_hasAckReceived received
  have rest : (machine.data.received machine.data.agreedRemoteEndpoint
      datagram).hasMoreToSend = true := more
  obtain ⟨rfl, rfl⟩ : action = .formDataPacket ∧ target = .dataRead := by
    cases firing <;> simp_all
  refine ⟨environment, permitted, ?_, ?_⟩
  · intro step member row other taken forms
    exact (only (by simp) step member row other taken
      (by rw [forms]; rfl)).2
  · rw [Action.run] at settles outputs
    rw [TreatsAsCurrent, if_pos more, sentPackets, outputs,
      filterMap_after_exit rfl rfl exits, List.nil_append]
    exact settles.sends_iff noError

/-- A read sets the badbit exactly on an input error of a good stream. -/
theorem bad_streamAfterRead {data : SessionData}
    {environment : Environment} (clear : data.fileStream.bad = false) :
    (data.streamAfterRead environment).bad =
      (data.fileStream.good && environment.readError.isSome) := by
  simp only [SessionData.streamAfterRead, FileStream.read]
  cases good : data.fileStream.good with
  | true =>
      cases environment.readError with
      | none => exact clear
      | some delivered => rfl
  | false => exact clear

/-- When an ACK of the outstanding packet is treated as current. -/
theorem Matches.current_iff (ack : Matches machine datagram)
    (role : ReadRole machine.data machine.state)
    (sound : DownloadSound machine.data machine.state)
    (wellFormed : machine.WellFormed config)
    (handles : Handles machine
      (.received machine.data.agreedRemoteEndpoint datagram) history next) :
    TreatsAsCurrent machine history next ↔
      machine.data.lastSentBlock < 65536 ∧
        (machine.data.hasMoreToSend = true →
          machine.data.fileStream.good = true →
            ∀ step ∈ history, Step.readsCleanly step = true) := by
  rw [ack.waits] at sound
  obtain ⟨clear, noError⟩ := sound
  constructor
  · intro treats
    have below : machine.data.lastSentBlock < 65536 := by
      by_contra wrapped
      exact ack.not_current role (by omega) wellFormed handles treats
    refine ⟨below, ?_⟩
    intro more good
    obtain ⟨environment, _, only, sends⟩ := ack.continues role noError below
      more (fun _ _ => True) wellFormed handles (by simp [Step.Meets])
    have clean := sends.mp treats
    rw [bad_streamAfterRead clear, good, Bool.true_and] at clean
    rintro ⟨before, input, outputs, after⟩ member
    cases input with
    | fire row other =>
        by_cases forms : row.action = .formDataPacket
        · have same := only _ member row other rfl forms
          simpa [Step.readsCleanly, forms, same] using clean
        · simp [Step.readsCleanly, forms]
    | _ => rfl
  · rintro ⟨below, clean⟩
    cases more : machine.data.hasMoreToSend with
    | false => exact ack.finishes role below more wellFormed handles
    | true =>
        have cleanly : ∀ step ∈ history, Step.Meets step
            fun action environment => action = .formDataPacket →
              machine.data.fileStream.good = true →
                environment.readError.isNone = true := by
          intro step member row environment taken forms good
          have reads := clean more good step member
          simpa [Step.readsCleanly, taken, forms] using reads
        obtain ⟨environment, reads, _, sends⟩ :=
          ack.continues role noError below more _ wellFormed handles cleanly
        apply sends.mpr
        rw [bad_streamAfterRead clear]
        cases good : machine.data.fileStream.good with
        | false => rfl
        | true => simpa using reads rfl good

end Acknowledging

/-- An ACK whose number is that of the outstanding DATA packet is treated as
current exactly while the number of blocks sent fits 16 bits, and when the
next block can be read. -/
theorem matching_ack_current_iff (config : Config) (past : List Step)
    (accept : Step) (rest : List Step) (machine : Machine)
    (datagram : Datagram)
    (serving : Serving config .initServeReadRequest past accept rest machine)
    (ack : Matches machine datagram) :
    (∃ history next, Handles machine
      (.received machine.data.agreedRemoteEndpoint datagram) history next) ∧
    ∀ history next, Handles machine
      (.received machine.data.agreedRemoteEndpoint datagram) history next →
      (TreatsAsCurrent machine history next ↔
        machine.data.lastSentBlock < 65536 ∧
          (machine.data.hasMoreToSend = true →
            machine.data.fileStream.good = true →
              ∀ step ∈ history, Step.readsCleanly step = true)) := by
  have wellFormed := serving.run.wellFormed
  constructor
  · obtain ⟨history, next, handles, _⟩ :=
      wellFormed.exists_handles_received (by rw [ack.waits]; rfl) ack.idle
        machine.data.agreedRemoteEndpoint datagram {}
    exact ⟨history, next, handles⟩
  · intro history next handles
    exact ack.current_iff serving.readRole.1 serving.sound wellFormed handles

section Examples

/-- A download of full blocks, in `WaitingForAck` after some of them. -/
private structure Downloaded (content : Bytes) (machine : Machine)
    (count : Nat) : Prop where
  waits : machine.state = .waitingForAck
  idle : machine.tasks = []
  noError : machine.data.hasError = false
  positioned : machine.data.Positioned 512 content
  sent : machine.data.lastSentBlock = count
  full : machine.data.lastBlockSize = 512
  outstanding : Packet.opCode machine.data.outgoing = .data

private theorem exists_block_sent {config : Config} {machine : Machine}
    {sender : Endpoint} {datagram : Datagram} (answers : Environment)
    (wellFormed : machine.WellFormed config)
    (waits : machine.state = .waitingForAck) (idle : machine.tasks = [])
    (firing : Firing (machine.data.received sender datagram) machine.state
      (some .packetReceived) .formDataPacket .dataRead)
    (calm : (formDataPacket answers
      (machine.data.received sender datagram)).hasError = false)
    (isOpen : (formDataPacket answers
      (machine.data.received sender datagram)).socketOpen = true) :
    ∃ history, session.Run machine history
        (Machine.entering .waitingForAck (resetTimeOut (formDataPacket answers
          (machine.data.received sender datagram)))) ∧
      ∀ step ∈ history, ¬ Step.Fires step .reset := by
  obtain ⟨first, received, _, quiet⟩ := wellFormed.exists_received
    (fun action _ => action ≠ .reset) (by rw [waits]; rfl) idle answers
    (by simp) firing
    (.passes {} (by simp) (.blockRead calm)
      (.waits (by simp [State.operation])))
  obtain ⟨second, transmitted, silent⟩ :=
    (received.wellFormed wellFormed).exists_sent
      (fun action _ => action ≠ .reset) rfl rfl isOpen (by simp) .dataSent
      (by simp [State.operation])
  refine ⟨first ++ second,
    System.run_append.mpr ⟨_, received.run, transmitted.run⟩, ?_⟩
  rintro step member ⟨row, environment, taken, resets⟩
  rcases List.mem_append.mp member with earlier | later
  · exact quiet step earlier row environment taken resets
  · exact silent step later row environment taken resets

/-- The ACK of a full block before the wrap leads to the wait for the ACK of
the next one. -/
private theorem Downloaded.exists_next {config : Config}
    {past rest : List Step} {accept : Step} {machine : Machine}
    {content : Bytes} {count : Nat}
    (serving : Serving config .initServeReadRequest past accept rest machine)
    (downloaded : Downloaded content machine count) (below : count < 65536)
    (long : (count + 1) * 512 ≤ content.length) :
    ∃ more next, Serving config .initServeReadRequest past accept
        (rest ++ more) next ∧ Downloaded content next (count + 1) := by
  obtain ⟨waits, idle, noError, positioned, sent, full, outstanding⟩ :=
    downloaded
  have role := serving.readRole.1
  have wellFormed := serving.run.wellFormed
  let answers : Environment := { content }
  let datagram : Datagram :=
    ⟨Packet.ackPacket (Packet.word machine.data.outgoing),
      Nat.le_of_ble_eq_true rfl⟩
  let data := machine.data.received machine.data.agreedRemoteEndpoint datagram
  let formed := formDataPacket answers data
  have ack : Matches machine datagram :=
    ⟨waits, idle, outstanding, rfl, Packet.opCode_ackPacket _,
      Packet.word_ackPacket _⟩
  have positioned : data.Positioned 512 content :=
    positioned.start (.received machine.data.agreedRemoteEndpoint datagram)
  have more : data.hasMoreToSend = true := by
    have blockSize := positioned.blockSize
    have full : data.lastBlockSize = 512 := full
    simp [SessionData.hasMoreToSend, blockSize, full]
  have current : data.isOldAck = false := by
    rw [ack.isOldAck role, sent]
    exact decide_eq_false (by omega)
  obtain ⟨counts, outgoing, after⟩ : formed.lastSentBlock =
      data.lastSentBlock + 1 ∧ _ ∧ formed.Positioned 512 content :=
    positioned.formDataPacket more rfl rfl
  have delivered : (data.streamAfterRead answers).bad = false := by
    rw [bad_streamAfterRead positioned.sound]
    exact Bool.and_false _
  have formed_eq := formDataPacket_of_not_bad delivered
  have calm : formed.hasError = false := by
    simp only [formed, formed_eq]
    exact noError
  have isOpen : formed.socketOpen = true := by
    simp only [formed, formed_eq]
    exact wellFormed.socketOpen (by rw [waits]; rfl)
  have sent : data.lastSentBlock = count := sent
  have firing : Firing data machine.state (some .packetReceived)
      .formDataPacket .dataRead := by
    rw [waits]
    exact .nextBlock (by simp [data]) (ack.hasAckReceived role) current more
  obtain ⟨history, run, ongoing⟩ :=
    exists_block_sent answers wellFormed waits idle firing calm isOpen
  refine ⟨history, Machine.entering .waitingForAck (resetTimeOut formed),
    serving.extend run ongoing, rfl, rfl, calm, ?_, ?_, ?_, ?_⟩
  · exact ⟨after.blockSize, after.readable, after.sound, after.last,
      after.ready⟩
  · exact counts.trans (by rw [sent])
  · refine (after.last count (counts.trans (by rw [sent]))).trans ?_
    rw [block_length]
    omega
  · have shown : Packet.opCode formed.outgoing = .data := by
      rw [outgoing, Packet.opCode_dataPacket]
    exact shown

/-- A file of 65537 full blocks. -/
private def longFile : Bytes :=
  List.replicate (65537 * 512) 0

private theorem exists_downloaded_one :
    ∃ past accept rest machine,
      Serving .loopback .initServeReadRequest past accept rest machine ∧
        Downloaded longFile machine 1 := by
  obtain ⟨past, accept, rest, machine, serving, passes⟩ :=
    exists_serving_of_converse .initServeReadRequest
      [(.accepted .client (requestOf .readRequest), { content := longFile }),
        (.sent false, { content := longFile })]
      (fun _ _ machine => decide (machine.state = .waitingForAck ∧
        machine.tasks = [] ∧ machine.data.hasError = false ∧
          machine.data.lastSentBlock = 1 ∧
            machine.data.lastBlockSize = 512 ∧
              Packet.opCode machine.data.outgoing = .data ∧
                machine.data.agreedBlockSize = 512 ∧
                  machine.data.fileStream =
                    { isOpen := true, readable := true, position := 512 }))
      (by decide +kernel)
  obtain ⟨waits, idle, noError, sent, full, outstanding, blockSize,
    stream⟩ := of_decide_eq_true passes
  refine ⟨past, accept, rest, machine, serving, waits, idle, noError, ?_,
    sent, full, outstanding⟩
  refine ⟨blockSize, by rw [stream], by rw [stream], ?_, ?_⟩
  · intro index counts
    obtain rfl : index = 0 := by omega
    rw [full, block_length, longFile, List.length_replicate]
    omega
  · intro _
    rw [stream, sent]
    simp [FileStream.good]

/-- A client can acknowledge all blocks before the wrap. -/
private theorem exists_downloaded (count : Nat) (bound : count < 65536) :
    ∃ past accept rest machine,
      Serving .loopback .initServeReadRequest past accept rest machine ∧
        Downloaded longFile machine (count + 1) := by
  induction count with
  | zero => exact exists_downloaded_one
  | succ count ih =>
      obtain ⟨past, accept, rest, machine, serving, downloaded⟩ :=
        ih (by omega)
      have remains : (count + 2) * 512 ≤ longFile.length := by
        rw [longFile, List.length_replicate]
        omega
      obtain ⟨more, next, extended, further⟩ :=
        downloaded.exists_next serving (by omega) remains
      exact ⟨past, accept, rest ++ more, next, extended, further⟩

/-- The ACK of the first block of a download is treated as current. -/
theorem first_ack_current :
    ∃ past accept rest machine history next,
      Serving .loopback .initServeReadRequest past accept rest machine ∧
      Handles machine (.received machine.data.agreedRemoteEndpoint
        ⟨Packet.ackPacket 1, by decide⟩) history next ∧
      TreatsAsCurrent machine history next := by
  obtain ⟨past, accept, rest, machine, serving, passes⟩ :=
    exists_serving_of_converse .initServeReadRequest
      [(.accepted .client (requestOf .readRequest), { content := [7] }),
        (.sent false, { content := [7] })]
      (fun _ _ machine => decide (machine.state = .waitingForAck ∧
        machine.tasks = [] ∧
          Packet.opCode machine.data.outgoing = .data ∧
            Packet.word machine.data.outgoing = 1 ∧
              machine.data.lastSentBlock = 1 ∧
                machine.data.hasMoreToSend = false))
      (by decide +kernel)
  obtain ⟨waits, idle, outstanding, number, sent, done⟩ :=
    of_decide_eq_true passes
  have ack : Matches machine ⟨Packet.ackPacket 1, by decide⟩ :=
    ⟨waits, idle, outstanding, rfl, by simp, by simp [number]⟩
  obtain ⟨⟨history, next, handles⟩, current⟩ := matching_ack_current_iff
    .loopback past accept rest machine _ serving ack
  exact ⟨past, accept, rest, machine, history, next, serving, handles,
    (current history next handles).mpr
      ⟨by omega, fun more => by simp [done] at more⟩⟩

/-- After 65536 blocks the ACK with the number of the outstanding packet is
ignored. -/
theorem ack_of_block_65536_ignored :
    ∃ past accept rest machine history next,
      Serving .loopback .initServeReadRequest past accept rest machine ∧
      machine.data.lastSentBlock = 65536 ∧
      Matches machine ⟨Packet.ackPacket 0, by decide⟩ ∧
      Handles machine (.received machine.data.agreedRemoteEndpoint
        ⟨Packet.ackPacket 0, by decide⟩) history next ∧
      (∀ step ∈ history, Step.readsCleanly step = true) ∧
      ¬ TreatsAsCurrent machine history next := by
  obtain ⟨past, accept, rest, machine, serving, downloaded⟩ :=
    exists_downloaded 65535 (by omega)
  obtain ⟨waits, idle, _, _, sent, _, outstanding⟩ := downloaded
  have role := serving.readRole.1
  have wellFormed := serving.run.wellFormed
  have number : Packet.word machine.data.outgoing = 0 := by
    rw [waits] at role
    rcases role with ⟨unsent, _⟩ | ⟨_, payload, block⟩
    · omega
    · rw [block, Packet.word_dataPacket, sent]
      rfl
  have ack : Matches machine ⟨Packet.ackPacket 0, by decide⟩ :=
    ⟨waits, idle, outstanding, rfl, by simp, by simp [number]⟩
  obtain ⟨history, next, handles, meets⟩ :=
    wellFormed.exists_handles_received (by rw [waits]; rfl) idle
      machine.data.agreedRemoteEndpoint ⟨Packet.ackPacket 0, by decide⟩ {}
  refine ⟨past, accept, rest, machine, history, next, serving, sent, ack,
    handles, ?_, ack.not_current role (by omega) wellFormed handles⟩
  rintro ⟨before, input, outputs, after⟩ member
  cases input with
  | fire row environment =>
      rw [Step.readsCleanly, meets _ member row environment rfl]
      simp
  | _ => rfl

end Examples

end MsmTftp
