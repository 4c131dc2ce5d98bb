import MsmTftp.DownloadProtocol
import MsmTftp.SessionDownloadNumbers

/-!
# A download can always be finished

Whatever happened so far, a session that waits for an acknowledgment or sends
a block can still deliver the rest of the file: the client takes the block
that was sent and acknowledges it, and the session goes on to the next one.
Losses, repetitions and strangers cost time but never lead a download into a
state from which the file cannot be completed, up to the last block number
there is.
-/

namespace MsmTftp

open TransitionSystem TransferBlocks StopAndWait

/-- An action of a download that goes on, on a file with this content. -/
def Steady (content : Bytes) (action : Action) (environment : Environment) :
    Prop :=
  action ≠ .reset ∧
    (action = .formDataPacket →
      environment.content = content ∧ environment.readError = none)

/-- A continuation of a download on a file with this content. -/
def DownloadLink.Leads (content : Bytes) (link last : DownloadLink) : Prop :=
  ∃ more, download.Run link more last ∧
    ∀ step ∈ more,
      DownloadMove.readsFrom content (Transition.input step) = true

section Lifting

variable {content : Bytes} {link middle last : DownloadLink}

theorem DownloadLink.Leads.refl (link : DownloadLink) :
    link.Leads content link := by
  refine ⟨[], rfl, ?_⟩
  intro step member
  cases member

theorem DownloadLink.Leads.trans (first : link.Leads content middle)
    (second : middle.Leads content last) : link.Leads content last := by
  obtain ⟨before, run, reads⟩ := first
  obtain ⟨after, continues, others⟩ := second
  refine ⟨before ++ after, System.run_append.mpr ⟨middle, run, continues⟩, ?_⟩
  intro step member
  rcases List.mem_append.mp member with earlier | later
  · exact reads step earlier
  · exact others step later

theorem DownloadLink.leads_of_step (link : DownloadLink)
    (move : DownloadMove) (effects : List Effect)
    (stepped : link.step move = some (last, effects))
    (reads : move.readsFrom content = true) : link.Leads content last := by
  refine ⟨[⟨link, move, effects, last⟩], ⟨rfl, stepped, rfl⟩, ?_⟩
  intro step member
  rw [List.mem_singleton.mp member]
  exact reads

theorem DownloadLink.leads_take {packet : Bytes}
    (sent : packet ∈ link.sent) (opcode : Packet.opCode packet = .data)
    (follows : (Packet.word packet).toNat = link.taken.length + 1) :
    link.Leads content
      { link with taken := link.taken ++ [Packet.payload packet] } :=
  leads_of_step link (.take packet) [] (if_pos ⟨sent, opcode, follows⟩) rfl

theorem DownloadLink.leads_acknowledge {number : Nat}
    (held : number ≤ link.taken.length) :
    link.Leads content
      { link with
        answers := link.answers ++
          [Packet.ackPacket (UInt16.ofNat number)] } :=
  leads_of_step link (.acknowledge number) [] (if_pos held) rfl

theorem DownloadLink.leads_session {input : Input} {machine : Machine}
    {effects : List Effect} (permitted : link.permits input = true)
    (stepped : link.machine.step input = some (machine, effects))
    (reads : DownloadMove.readsFrom content (.session input) = true) :
    link.Leads content
      { link with
        machine
        sent := link.sent ++
          (effects.filterMap Effect.packet).map Prod.fst } := by
  apply leads_of_step link (.session input) effects _ reads
  simp only [step, permitted, if_true, stepped, Option.map_some]

/-- A step of the session is one of the download when what it receives was
sent by the client. -/
theorem DownloadLink.leads_of_steady {input : Input} {machine : Machine}
    {effects : List Effect}
    (stepped : link.machine.step input = some (machine, effects))
    (meets : Step.Meets ⟨link.machine, input, effects, machine⟩
      (Steady content))
    (heard : ∀ sender datagram,
      input = .complete (.received sender datagram) →
        datagram.bytes ∈ link.answers) :
    link.Leads content
      { link with
        machine
        sent := link.sent ++
          (effects.filterMap Effect.packet).map Prod.fst } := by
  refine leads_session ?_ stepped ?_
  · cases input with
    | complete completion =>
        cases completion with
        | received sender datagram =>
            simp [permits, heard sender datagram rfl]
        | _ => rfl
    | fire row environment => simp [permits, (meets row environment rfl).1]
    | parse | reject => rfl
  · cases input with
    | fire row environment =>
        by_cases forms : row.action = .formDataPacket
        · obtain ⟨same, noError⟩ := (meets row environment rfl).2 forms
          simp [DownloadMove.readsFrom, same, noError]
        · simp [DownloadMove.readsFrom, forms]
    | complete | parse | reject => rfl

theorem DownloadLink.exists_leads_of_handles {completion : Completion}
    {steps : List Step} {machine : Machine}
    (handles : Handles link.machine completion steps machine)
    (meets : ∀ step ∈ steps, Step.Meets step (Steady content))
    (heard : ∀ sender datagram, completion = .received sender datagram →
      datagram.bytes ∈ link.answers) :
    ∃ last, link.Leads content last ∧ last.machine = machine := by
  obtain ⟨last, leads, machine_eq, _⟩ := handles.history_invariant meets
    (fun _ machine => ∃ last, link.Leads content last ∧
      last.machine = machine ∧ last.answers = link.answers)
    ⟨link, .refl link, rfl, rfl⟩ (by
      rintro _ ⟨before, input, effects, after⟩ ⟨last, leads, rfl, same⟩
        admitted meets only
      refine ⟨_, leads.trans (leads_of_steady admitted meets fun sender
        datagram receives => ?_), rfl, same⟩
      rw [same]
      exact heard sender datagram (only _ receives).symm)
  exact ⟨last, leads, machine_eq⟩

end Lifting

section Rounds

variable {config : Config} {past : List Step} {accept : Step}
  {content : Bytes} {history : List DownloadStep} {link : DownloadLink}

theorem sent_eq_of_run {machine : Machine}
    (run : download.Run (.accepted machine) history link) :
    link.sent = (sentPackets (downloadSteps history)).map Prod.fst := by
  apply run.history_invariant (fun _ => True) (fun _ _ => trivial)
    fun history link =>
      link.sent = (sentPackets (downloadSteps history)).map Prod.fst
  · rfl
  · rintro earlier ⟨before, move, effects, after⟩ same admitted _
    have admits : before.step move = some (after, effects) := admitted
    cases downloadCases admits with
    | session permitted stepped =>
        rw [downloadSteps_session, sentPackets_concat, List.map_append,
          ← same]
    | take sent opcode follows =>
        rw [downloadSteps_client rfl]
        exact same
    | acknowledge held =>
        rw [downloadSteps_client rfl]
        exact same

theorem Serving.download
    (serving : Serving config .initServeReadRequest past accept []
      accept.after)
    (run : download.Run (.accepted accept.after) history link) :
    Serving config .initServeReadRequest past accept (downloadSteps history)
      link.machine := by
  have steps : session.Run accept.after (downloadSteps history)
      link.machine := by
    refine run.project DownloadLink.machine (fun _ => DownloadMove.input)
      ?_ ?_
    · rintro ⟨before, move, effects, after⟩ admitted client
      have admits : before.step move = some (after, effects) := admitted
      cases downloadCases admits with
      | session permitted stepped => cases client
      | take sent opcode follows => rfl
      | acknowledge held => rfl
    · rintro ⟨before, move, effects, after⟩ input admitted translated
      have admits : before.step move = some (after, effects) := admitted
      cases downloadCases admits with
      | session permitted stepped =>
          obtain rfl := Option.some.inj translated
          exact stepped
      | take sent opcode follows => cases translated
      | acknowledge held => cases translated
  refine serving.extend steps ?_
  intro step member
  obtain ⟨move, inside, projected⟩ := List.mem_filterMap.mp member
  obtain ⟨input, translated, rfl⟩ := Option.map_eq_some_iff.mp projected
  obtain ⟨before, later, rfl⟩ := List.append_of_mem inside
  obtain ⟨_, admitted, _⟩ := System.run_split.mp run
  obtain ⟨source, move, effects, after⟩ := move
  have admits : source.step move = some (after, effects) := admitted
  cases downloadCases admits with
  | session permitted stepped =>
      obtain rfl := Option.some.inj translated
      exact source.ongoing_of_permits permitted
  | take sent opcode follows => cases translated
  | acknowledge held => cases translated

/-- The client can get hold of the current block and acknowledge it. -/
theorem Serving.exists_acknowledged
    (serving : Serving config .initServeReadRequest past accept []
      accept.after)
    (opened : accept.after.data.fileStream.isOpen = true)
    (leads : (DownloadLink.accepted accept.after).Leads content link)
    (narrow : (cut accept.after.data.agreedBlockSize content).length < 65536)
    (waits : link.machine.state = .waitingForAck) :
    ∃ next, link.Leads content next ∧ next.machine = link.machine ∧
      Packet.ackPacket (UInt16.ofNat link.machine.data.lastSentBlock) ∈
        next.answers := by
  obtain ⟨history, run, reads⟩ := leads
  obtain ⟨trace, twin, reached, same⟩ := serving.refines opened run reads
  obtain ⟨_, _, _, behind, ahead, inside⟩ := sound_of_run reached
  rw [same.cursor, same.taken] at behind ahead
  rw [same.cursor] at inside
  rcases Nat.lt_or_eq_of_le behind with missing | holds
  · have count : link.machine.data.lastSentBlock = link.taken.length + 1 := by
      omega
    let packet := Packet.dataPacket (UInt16.ofNat (link.taken.length + 1))
      (block accept.after.data.agreedBlockSize content link.taken.length)
    have current : packet ∈ formedPackets (downloadSteps history) := by
      rw [same.downloading.formed, count, dataPackets_succ]
      exact List.mem_append_right _ (List.mem_singleton_self _)
    have sent : packet ∈ link.sent := by
      rw [sent_eq_of_run run]
      rcases same.downloading.sent (by simp [waits]) packet current with
        was | ⟨reading, _⟩
      · exact was
      · simp [waits] at reading
    have number : (Packet.word packet).toNat = link.taken.length + 1 := by
      rw [Packet.word_dataPacket, UInt16.toNat_ofNat_of_lt']
      exact Nat.lt_of_le_of_lt (Nat.le_trans (Nat.le_of_eq count.symm) inside)
        narrow
    have takes : link.Leads content
        { link with taken := link.taken ++ [Packet.payload packet] } :=
      DownloadLink.leads_take sent (Packet.opCode_dataPacket _ _) number
    refine ⟨_, takes.trans (DownloadLink.leads_acknowledge ?_), rfl,
      List.mem_append_right _ (List.mem_singleton_self _)⟩
    rw [count, List.length_append, List.length_singleton]
  · exact ⟨_, DownloadLink.leads_acknowledge (Nat.le_of_eq holds.symm), rfl,
      List.mem_append_right _ (List.mem_singleton_self _)⟩

end Rounds

section Sessions

variable {config : Config} {content : Bytes} {size : Nat}
  {machine : Machine} {datagram : Datagram}

theorem SessionData.guards_current {data : SessionData}
    (narrow : data.lastSentBlock < 65536)
    (bytes : datagram.bytes =
      Packet.ackPacket (UInt16.ofNat data.lastSentBlock)) :
    (data.received data.agreedRemoteEndpoint datagram).hasAckReceived =
        true ∧
      (data.received data.agreedRemoteEndpoint datagram).isOldAck =
        false := by
  have long : datagram.bytes.length = 4 := by
    rw [bytes, Packet.ackPacket_length]
  have word : (Packet.word datagram.bytes).toNat = data.lastSentBlock := by
    rw [bytes, Packet.word_ackPacket, UInt16.toNat_ofNat_of_lt' narrow]
  constructor
  · rw [hasAckReceived_received]
    exact ⟨long, by rw [bytes, Packet.opCode_ackPacket], Nat.le_of_eq word⟩
  · rw [isOldAck_received _ _ (Nat.le_of_eq long.symm), word]
    exact decide_eq_false (Nat.lt_irrefl _)

theorem Machine.WellFormed.exists_block
    (wellFormed : machine.WellFormed config)
    (positioned : machine.data.Positioned size content)
    (waits : machine.state = .waitingForAck) (idle : machine.tasks = [])
    (noError : machine.data.hasError = false)
    (narrow : machine.data.lastSentBlock < 65536)
    (more : machine.data.hasMoreToSend = true)
    (bytes : datagram.bytes =
      Packet.ackPacket (UInt16.ofNat machine.data.lastSentBlock)) :
    ∃ history next, Handles machine
        (.received machine.data.agreedRemoteEndpoint datagram) history next ∧
      (∀ step ∈ history, Step.Meets step (Steady content)) ∧
        next.state = .sendingData ∧ next.tasks = [] ∧
          next.data.socketOpen = true ∧
            next.data.lastSentBlock = machine.data.lastSentBlock + 1 := by
  let answers : Environment := { content }
  let data := machine.data.received machine.data.agreedRemoteEndpoint datagram
  obtain ⟨received, current⟩ := SessionData.guards_current narrow bytes
  have positioned : data.Positioned size content :=
    positioned.start (.received machine.data.agreedRemoteEndpoint datagram)
  have more : data.hasMoreToSend = true := more
  have delivered : (data.streamAfterRead answers).bad = false := by
    rw [(positioned.read more rfl rfl).1]
    exact positioned.sound
  have formed_eq := formDataPacket_of_not_bad delivered
  have calm : (formDataPacket answers data).hasError = false := by
    rw [formed_eq]
    exact noError
  have receives : machine.state.operation = some .receive := by
    rw [waits]
    rfl
  have firing : Firing data machine.state (some .packetReceived)
      .formDataPacket .dataRead := by
    rw [waits]
    exact .nextBlock (by simp [data]) received current more
  obtain ⟨history, handles, _, meets⟩ := wellFormed.exists_received
    (Steady content) receives idle answers
    (show Steady content .formDataPacket answers from
      ⟨by simp, fun _ => ⟨rfl, rfl⟩⟩) firing
    (.passes {} ⟨by simp, by simp⟩ (.blockRead calm)
      (.waits (by simp [State.operation])))
  refine ⟨history, _, handles, meets, rfl, rfl, ?_, ?_⟩
  · show (formDataPacket answers data).socketOpen = true
    rw [formed_eq]
    exact wellFormed.socketOpen receives
  · exact (positioned.formDataPacket more rfl rfl).1

theorem Machine.WellFormed.final_of_last
    (wellFormed : machine.WellFormed config)
    (waits : machine.state = .waitingForAck) (idle : machine.tasks = [])
    (narrow : machine.data.lastSentBlock < 65536)
    (done : machine.data.hasMoreToSend = false)
    (bytes : datagram.bytes =
      Packet.ackPacket (UInt16.ofNat machine.data.lastSentBlock)) :
    ∃ next effects, machine.step (.complete
        (.received machine.data.agreedRemoteEndpoint datagram)) =
          some (next, effects) ∧ next.FinalAck := by
  have outstanding : Operation.receive ∈ machine.outstanding := by
    rw [wellFormed.outstanding_eq idle (by rw [waits]; rfl) (by simp)]
    exact List.mem_singleton_self _
  have returned : machine.returned = true :=
    returned_iff.mpr ⟨by simp [waits, State.operation], idle⟩
  obtain ⟨received, current⟩ := SessionData.guards_current narrow bytes
  refine ⟨_, _, if_pos ⟨returned, outstanding⟩, waits, rfl,
    beq_iff_eq.mpr rfl, ?_⟩
  have done : (machine.data.received machine.data.agreedRemoteEndpoint
      datagram).hasMoreToSend = false := done
  show Guard.hasFinalAckReceived.eval (machine.data.received
    machine.data.agreedRemoteEndpoint datagram) = true
  simp [Guard.hasFinalAckReceived, Guard.and, Guard.eval, received, current,
    done]

end Sessions

section Finishing

variable {config : Config} {past : List Step} {accept : Step}
  {content : Bytes} {link : DownloadLink}

theorem DownloadLink.exists_final
    (wellFormed : link.machine.WellFormed config)
    (waits : link.machine.state = .waitingForAck)
    (idle : link.machine.tasks = [])
    (narrow : link.machine.data.lastSentBlock < 65536)
    (done : link.machine.data.hasMoreToSend = false)
    (answered : Packet.ackPacket
      (UInt16.ofNat link.machine.data.lastSentBlock) ∈ link.answers) :
    ∃ last, link.Leads content last ∧ last.machine.FinalAck := by
  have bytes : (ackOf (UInt16.ofNat link.machine.data.lastSentBlock)).bytes =
      Packet.ackPacket (UInt16.ofNat link.machine.data.lastSentBlock) := rfl
  obtain ⟨machine, effects, stepped, final⟩ :=
    wellFormed.final_of_last waits idle narrow done bytes
  refine ⟨_, leads_session ?_ stepped rfl, final⟩
  simp [permits, bytes, answered]

theorem DownloadLink.exists_next {size : Nat}
    (wellFormed : link.machine.WellFormed config)
    (positioned : link.machine.data.Positioned size content)
    (waits : link.machine.state = .waitingForAck)
    (idle : link.machine.tasks = [])
    (noError : link.machine.data.hasError = false)
    (narrow : link.machine.data.lastSentBlock < 65536)
    (more : link.machine.data.hasMoreToSend = true)
    (answered : Packet.ackPacket
      (UInt16.ofNat link.machine.data.lastSentBlock) ∈ link.answers) :
    ∃ last, link.Leads content last ∧
      last.machine.state = .waitingForAck ∧ last.machine.tasks = [] ∧
        last.machine.data.lastSentBlock =
          link.machine.data.lastSentBlock + 1 := by
  have bytes : (ackOf (UInt16.ofNat link.machine.data.lastSentBlock)).bytes =
      Packet.ackPacket (UInt16.ofNat link.machine.data.lastSentBlock) := rfl
  obtain ⟨steps, machine, handles, meets, sends, settled, isOpen, count⟩ :=
    wellFormed.exists_block positioned waits idle noError narrow more bytes
  obtain ⟨middle, leads, rfl⟩ :=
    exists_leads_of_handles handles meets (by
      intro sender datagram received
      rw [Completion.received.injEq] at received
      rw [← received.2]
      exact answered)
  obtain ⟨others, transmits, steady⟩ :=
    (handles.wellFormed wellFormed).exists_sent (Steady content)
      (by rw [sends]; rfl) settled isOpen ⟨by simp, by simp⟩
      (by rw [sends]; exact .dataSent) (by simp [State.operation])
  obtain ⟨last, continues, waiting⟩ :=
    exists_leads_of_handles transmits steady (by simp)
  refine ⟨last, leads.trans continues, ?_⟩
  rw [waiting]
  exact ⟨rfl, rfl, count⟩

/-- A download that waits for an acknowledgment gets it: it was the final one,
or the session goes on to the next block. -/
theorem Serving.exists_round
    (serving : Serving config .initServeReadRequest past accept []
      accept.after)
    (opened : accept.after.data.fileStream.isOpen = true)
    (narrow : (cut accept.after.data.agreedBlockSize content).length < 65536)
    (leads : (DownloadLink.accepted accept.after).Leads content link)
    (waits : link.machine.state = .waitingForAck)
    (idle : link.machine.tasks = []) :
    ∃ last, link.Leads content last ∧ (last.machine.FinalAck ∨
      link.machine.data.lastSentBlock <
          (cut accept.after.data.agreedBlockSize content).length ∧
        last.machine.state = .waitingForAck ∧ last.machine.tasks = [] ∧
          last.machine.data.lastSentBlock =
            link.machine.data.lastSentBlock + 1) := by
  obtain ⟨next, caught, same, answered⟩ :=
    serving.exists_acknowledged opened leads narrow waits
  obtain ⟨history, run, reads⟩ := leads.trans caught
  have transfer := serving.download run
  have wellFormed := transfer.run.wellFormed
  obtain ⟨trace, twin, reached, matched⟩ := serving.refines opened run reads
  have positioned := matched.downloading.positioned
  have inside := (sound_of_run reached).inside
  rw [matched.cursor] at inside
  have sound := transfer.sound
  rw [← same] at waits idle answered ⊢
  rw [waits] at sound
  have reached : next.machine.data.lastSentBlock < 65536 :=
    Nat.lt_of_le_of_lt inside narrow
  cases more : next.machine.data.hasMoreToSend with
  | false =>
      obtain ⟨last, ends, final⟩ :=
        next.exists_final wellFormed waits idle reached more answered
      exact ⟨last, caught.trans ends, .inl final⟩
  | true =>
      obtain ⟨last, continues, advanced⟩ :=
        next.exists_next wellFormed positioned waits idle sound.2 reached
          more answered
      exact ⟨last, caught.trans continues,
        .inr ⟨positioned.inside serving.agreedBlockSize_pos more, advanced⟩⟩

/-- A download that waits for an acknowledgment can be finished, by induction
on the blocks that are left. -/
theorem Serving.exists_final
    (serving : Serving config .initServeReadRequest past accept []
      accept.after)
    (opened : accept.after.data.fileStream.isOpen = true)
    (narrow : (cut accept.after.data.agreedBlockSize content).length < 65536)
    (left : Nat) (leads : (DownloadLink.accepted accept.after).Leads content
      link)
    (waits : link.machine.state = .waitingForAck)
    (idle : link.machine.tasks = [])
    (bound : (cut accept.after.data.agreedBlockSize content).length ≤
      link.machine.data.lastSentBlock + left) :
    ∃ last, link.Leads content last ∧ last.machine.FinalAck := by
  induction left generalizing link with
  | zero =>
      obtain ⟨last, continues, final | ⟨below, _⟩⟩ :=
        serving.exists_round opened narrow leads waits idle
      · exact ⟨last, continues, final⟩
      · omega
  | succ left ih =>
      obtain ⟨middle, continues, final | ⟨_, waits, idle, count⟩⟩ :=
        serving.exists_round opened narrow leads waits idle
      · exact ⟨middle, continues, final⟩
      · obtain ⟨last, ends, final⟩ :=
          ih (leads.trans continues) waits idle (by omega)
        exact ⟨last, continues.trans ends, final⟩

theorem Serving.exists_waiting
    (serving : Serving config .initServeReadRequest past accept []
      accept.after)
    (leads : (DownloadLink.accepted accept.after).Leads content link)
    (returned : link.machine.returned = true)
    (calm : link.machine.state ≠ .sendingError)
    (isOpen : link.machine.data.socketOpen = true) :
    ∃ next, link.Leads content next ∧
      next.machine.state = .waitingForAck ∧ next.machine.tasks = [] := by
  obtain ⟨history, run, _⟩ := leads
  have transfer := serving.download run
  obtain ⟨drives, idle⟩ := returned_iff.mp returned
  have role := transfer.readRole.1
  cases state : link.machine.state with
  | waitingForAck => exact ⟨link, .refl link, state, idle⟩
  | sendingData =>
      obtain ⟨steps, handles, meets⟩ :=
        transfer.run.wellFormed.exists_sent (Steady content)
          (by rw [state]; rfl) idle isOpen ⟨by simp, by simp⟩
          (by rw [state]; exact .dataSent) (by simp [State.operation])
      obtain ⟨next, leads, machine_eq⟩ :=
        DownloadLink.exists_leads_of_handles handles meets (by simp)
      refine ⟨next, leads, ?_⟩
      rw [machine_eq]
      exact ⟨rfl, rfl⟩
  | sendingError => exact absurd state calm
  | readRequestReceived => simp [state, State.operation] at drives
  | dataRead => simp [state, State.operation] at drives
  | _ =>
      rw [state] at role
      exact role.elim

end Finishing

/-- From every state of a download in which the session waits for an
acknowledgment or sends a block, the client can still get the whole file. -/
theorem download_can_finish (config : Config) (past : List Step)
    (accept : Step) (content : Bytes) (link : DownloadLink)
    (serving : Serving config .initServeReadRequest past accept []
      accept.after)
    (opened : accept.after.data.fileStream.isOpen = true)
    (small : content.length < 65535 * accept.after.data.agreedBlockSize)
    (leads : (DownloadLink.accepted accept.after).Leads content link)
    (returned : link.machine.returned = true)
    (calm : link.machine.state ≠ .sendingError)
    (isOpen : link.machine.data.socketOpen = true) :
    ∃ last, link.Leads content last ∧ last.machine.FinalAck ∧
      last.taken.flatten = content := by
  have positive := serving.agreedBlockSize_pos
  have narrow : (cut accept.after.data.agreedBlockSize content).length <
      65536 := by
    rw [cut, blocks_length]
    apply Nat.succ_lt_succ
    rw [Nat.div_lt_iff_lt_mul positive]
    exact small
  obtain ⟨middle, waiting, waits, idle⟩ :=
    serving.exists_waiting leads returned calm isOpen
  obtain ⟨last, ends, final⟩ := serving.exists_final opened narrow _
    (leads.trans waiting) waits idle (Nat.le_add_left _ _)
  have continues := waiting.trans ends
  obtain ⟨history, run, reads⟩ := leads.trans continues
  obtain ⟨trace, twin, reached, same⟩ := serving.refines opened run reads
  refine ⟨last, continues, final, ?_⟩
  rw [same.taken_of_final (sound_of_run reached) positive final,
    cut_flatten positive]

section Examples

open DownloadMove in
/-- The first block was sent three times, and no copy has reached the
client. -/
private def lostBlocks :
    List (DownloadMove × (DownloadLink → Option DownloadMove)) :=
  [(.acknowledge 0, untilReturned), completes (.sent false),
    completes (.received .client (ackOf 0)), completes (.sent false),
    completes .receiveFailed, completes (.sent false),
    completes .receiveFailed, completes (.sent false), alone (.acknowledge 0)]

/-- A download that lost its first block three times can be finished. -/
theorem lost_blocks_can_finish :
    ∃ past accept link last,
      Serving .loopback .initServeReadRequest past accept [] accept.after ∧
        (DownloadLink.accepted accept.after).Leads elevenBytes link ∧
          link.taken = [] ∧ link.machine.data.resendCount = 2 ∧
            link.Leads elevenBytes last ∧
              last.taken.flatten = elevenBytes := by
  obtain ⟨past, accept, history, link, serving, opened, size, run, passes⟩ :=
    exists_download_of_execute lostBlocks
      (fun history link => link.machine.returned &&
        link.machine.data.socketOpen && link.taken.isEmpty &&
          decide (link.machine.state = .waitingForAck) &&
            decide (link.machine.data.resendCount = 2) &&
              history.all fun step => step.input.readsFrom elevenBytes)
      (by decide +kernel)
  simp only [Bool.and_eq_true, decide_eq_true_eq, List.all_eq_true,
    List.isEmpty_iff] at passes
  obtain ⟨⟨⟨⟨⟨returned, isOpen⟩, empty⟩, waits⟩, resent⟩, reads⟩ := passes
  have leads : (DownloadLink.accepted accept.after).Leads elevenBytes link :=
    ⟨history, run, reads⟩
  obtain ⟨last, continues, _, whole⟩ := download_can_finish .loopback past
    accept elevenBytes link serving opened (by rw [size]; decide) leads
    returned (by simp [waits]) isOpen
  exact ⟨past, accept, link, last, serving, leads, empty, resent, continues,
    whole⟩

end Examples

end MsmTftp
