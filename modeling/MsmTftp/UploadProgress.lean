import MsmTftp.SessionUploadNumbers
import MsmTftp.UploadProtocol

/-!
# An upload can be finished until it strays

A session that waits for data or sends an ACK has sent the ACK of the block it
saved last, so the client can go on: it sends the next block, the session saves
it and acknowledges it.  From every such state with a sound file stream the
client can upload the rest of its blocks, up to the last block number there
is.
-/

namespace MsmTftp

open TransitionSystem TransferBlocks StopAndWait

/-- An action of an upload that goes on, on a disk that takes the bytes. -/
def Accepting (action : Action) (environment : Environment) : Prop :=
  action ≠ .reset ∧ (action = .writeData → environment.acceptsWrite = true)

/-- A continuation of an upload of some blocks. -/
def UploadLink.Leads (blocks : List Bytes) (link last : UploadLink) : Prop :=
  ∃ more, (upload blocks).Run link more last

/-- The session is at its regular place in an upload: it waits for data and has
acknowledged the block saved last. -/
structure UploadLink.Ready (link : UploadLink) : Prop where
  waits : link.machine.state = .waitingForData
  idle : link.machine.tasks = []
  good : link.machine.data.fileStream.good = true
  noError : link.machine.data.hasError = false
  answered : Packet.ackPacket
    (UInt16.ofNat link.machine.data.lastSavedBlock) ∈ link.answers

section Lifting

variable {blocks : List Bytes} {link middle last : UploadLink}

theorem UploadLink.Leads.refl (link : UploadLink) : link.Leads blocks link :=
  ⟨[], rfl⟩

theorem UploadLink.Leads.trans (first : link.Leads blocks middle)
    (second : middle.Leads blocks last) : link.Leads blocks last := by
  obtain ⟨before, run⟩ := first
  obtain ⟨after, continues⟩ := second
  exact ⟨before ++ after, System.run_append.mpr ⟨middle, run, continues⟩⟩

theorem UploadLink.leads_of_step (link : UploadLink) (move : UploadMove)
    (effects : List Effect)
    (stepped : link.step blocks move = some (last, effects)) :
    link.Leads blocks last :=
  ⟨[⟨link, move, effects, last⟩], rfl, stepped, rfl⟩

theorem UploadLink.leads_offer {number : Nat} {block : Bytes}
    (reached : number ≤ link.cursor)
    (located : blockAt blocks number = some block) :
    link.Leads blocks
      { link with
        offered := link.offered ++
          [Packet.dataPacket (UInt16.ofNat number) block] } := by
  apply leads_of_step link (.offer number) []
  simp only [step, located, Option.map_some]
  exact if_pos reached

theorem UploadLink.leads_advance
    (answered : Packet.ackPacket (UInt16.ofNat link.cursor) ∈ link.answers)
    (more : link.cursor < blocks.length) (narrow : link.cursor < 65535) :
    link.Leads blocks { link with cursor := link.cursor + 1 } :=
  leads_of_step link .advance [] (if_pos ⟨answered, more, narrow⟩)

/-- A step of the session is one of the upload when what it receives was sent
by the client. -/
theorem UploadLink.leads_of_accepting {input : Input} {machine : Machine}
    {effects : List Effect}
    (stepped : link.machine.step input = some (machine, effects))
    (meets : Step.Meets ⟨link.machine, input, effects, machine⟩ Accepting)
    (heard : ∀ sender datagram,
      input = .complete (.received sender datagram) →
        datagram.bytes ∈ link.offered) :
    link.Leads blocks
      { link with
        machine
        answers := link.answers ++
          (effects.filterMap Effect.packet).map Prod.fst
        written := link.written ++ effects.filterMap Effect.written } := by
  have permitted : link.permits input = true := by
    match input with
    | .complete (.received sender datagram) =>
        simp [permits, heard sender datagram rfl]
    | .fire row environment =>
        simp [permits, (meets row environment rfl).1]
    | .complete (.accepted _ _) | .complete .acceptFailed
    | .complete (.sent _) | .complete .receiveFailed | .parse | .reject =>
        rfl
  apply leads_of_step link (.session input) effects
  simp only [step, permitted, if_true, stepped, Option.map_some]

theorem UploadLink.exists_leads_of_handles {completion : Completion}
    {steps : List Step} {machine : Machine}
    (handles : Handles link.machine completion steps machine)
    (meets : ∀ step ∈ steps, Step.Meets step Accepting)
    (heard : ∀ sender datagram, completion = .received sender datagram →
      datagram.bytes ∈ link.offered) :
    ∃ last, link.Leads blocks last ∧ last.machine = machine ∧
      last.answers = link.answers ++ (sentPackets steps).map Prod.fst := by
  obtain ⟨last, leads, machine_eq, _, answers⟩ :=
    handles.history_invariant meets
      (fun steps machine => ∃ last, link.Leads blocks last ∧
        last.machine = machine ∧ last.offered = link.offered ∧
          last.answers = link.answers ++ (sentPackets steps).map Prod.fst)
      ⟨link, .refl link, rfl, rfl, by simp [sentPackets]⟩ (by
        rintro past ⟨before, input, effects, after⟩
          ⟨last, leads, rfl, same, answers⟩ admitted meets only
        refine ⟨_, leads.trans (leads_of_accepting admitted meets fun sender
          datagram receives => ?_), rfl, same, ?_⟩
        · rw [same]
          exact heard sender datagram (only _ receives).symm
        · rw [answers, sentPackets_concat, List.map_append,
            List.append_assoc])
  exact ⟨last, leads, machine_eq, answers⟩

end Lifting

section Sessions

variable {config : Config} {machine : Machine} {datagram : Datagram}

theorem Machine.WellFormed.exists_saved
    (wellFormed : machine.WellFormed config)
    (waits : machine.state = .waitingForData) (idle : machine.tasks = [])
    (good : machine.data.fileStream.good = true)
    (noError : machine.data.hasError = false)
    (follows : Follows machine datagram)
    (narrow : machine.data.lastSavedBlock < 65535) :
    ∃ history next, Handles machine
        (.received machine.data.agreedRemoteEndpoint datagram) history next ∧
      (∀ step ∈ history, Step.Meets step Accepting) ∧
        next.state = .sendingAck ∧ next.tasks = [] ∧
          next.data.socketOpen = true ∧
            next.data.fileStream.good = true ∧
              next.data.lastSavedBlock =
                machine.data.lastSavedBlock + 1 := by
  let data := machine.data.received machine.data.agreedRemoteEndpoint datagram
  have receives : machine.state.operation = some .receive := by
    rw [waits]
    rfl
  have new : data.isOldData = false := by
    rw [follows.isOldData, decide_eq_false (by omega)]
  have written : writeData {} data =
      (data.saved, [.writeFile (Packet.payload data.incoming)]) :=
    writeData_of_good good rfl
  have firing : Firing data machine.state (some .packetReceived) .writeData
      .dataWritten := by
    rw [waits]
    exact .newData (by simp [data]) follows.hasDataReceived new
  obtain ⟨effects, settles⟩ : ∃ effects,
      Settles Accepting .dataWritten
        (Action.run {} (some .packetReceived) data .writeData).1 effects
          (Machine.entering .sendingAck (formAckPacket data.saved)) := by
    rw [Action.run, written]
    exact ⟨_, .passes {} ⟨by simp, by simp⟩ (.dataSaved noError)
      (.waits (by simp [State.operation]))⟩
  obtain ⟨history, handles, _, meets⟩ := wellFormed.exists_received Accepting
    receives idle {} (show Accepting .writeData {} from ⟨by simp, by simp⟩)
    firing settles
  refine ⟨history, _, handles, meets, rfl, rfl,
    wellFormed.socketOpen receives, good, ?_⟩
  show data.receivedWord.toNat = _
  rw [receivedWord_received _ datagram follows.long, follows.number,
    UInt16.toNat_ofNat', Nat.mod_eq_of_lt (by omega)]

end Sessions

section Rounds

variable {config : Config} {past : List Step} {accept : Step}
  {blocks : List Bytes} {link : UploadLink}

/-- The ways to `SendingAck` and to `WaitingForData`. -/
theorem Firing.of_sendingAck {data : SessionData} {source : State}
    {event : Option EventKind} {action : Action}
    (firing : Firing data source event action .sendingAck) :
    action = .formAckPacket ∨ source = .waitingForData ∧ action = .timeOut := by
  cases firing <;> simp

theorem Firing.of_waitingForData {data : SessionData} {source : State}
    {event : Option EventKind} {action : Action}
    (firing : Firing data source event action .waitingForData) :
    source = .sendingAck ∧ action = .none := by
  cases firing
  simp

/-- The ACK of the block saved last is the outgoing packet, and it was sent. -/
def UploadLink.Answered (link : UploadLink) : Prop :=
  link.machine.state = .sendingAck ∨ link.machine.state = .waitingForData →
    link.machine.data.outgoing =
        Packet.ackPacket (UInt16.ofNat link.machine.data.lastSavedBlock) ∧
      link.machine.data.outgoing ∈ link.answers

/-- A step of the session keeps the ACK of the block saved last sent. -/
theorem UploadLink.Answered.session (answered : link.Answered)
    (wellFormed : link.machine.WellFormed config)
    (busy : link.machine.state.busy = true) {input : Input}
    {machine : Machine} {effects : List Effect}
    (permitted : link.permits input = true)
    (stepped : link.machine.step input = some (machine, effects)) :
    UploadLink.Answered
      { link with
        machine
        answers := link.answers ++
          (effects.filterMap Effect.packet).map Prod.fst
        written := link.written ++ effects.filterMap Effect.written } := by
  intro reached
  cases wellFormed.busyCases busy stepped (link.ongoing_of_permits permitted)
      with
  | @complete completion idle uses drives =>
      obtain ⟨outgoing, sent⟩ := answered reached
      have counted : (completion.start link.machine.data).1.lastSavedBlock =
          link.machine.data.lastSavedBlock := by
        cases completion <;> rfl
      simp only [start_outgoing, counted]
      exact ⟨outgoing, List.mem_append_left _ sent⟩
  | @fire row environment event exitEffects effects next cases ongoing target
      data_eq =>
      have firing := cases.firing
      rw [cases.state_eq] at reached
      rcases reached with sends | waits
      · rw [cases.packets, sends,
          if_pos (show State.sendingAck.operation = some .send from rfl),
          ← data_eq]
        refine ⟨?_, List.mem_append_right _ (List.mem_singleton_self _)⟩
        rw [sends] at firing
        rcases firing.of_sendingAck with forms | ⟨source, resends⟩
        · rw [data_eq, forms]
          exact outgoing_formAckPacket
        · rw [data_eq, resends]
          exact (answered (.inr source)).1
      · rw [waits] at firing
        obtain ⟨source, keeps⟩ := firing.of_waitingForData
        rw [keeps] at data_eq
        obtain ⟨outgoing, sent⟩ := answered (.inl source)
        rw [data_eq]
        exact ⟨outgoing, List.mem_append_left _ sent⟩

theorem Serving.answered
    (serving : Serving config .initServeWriteRequest past accept []
      accept.after)
    (leads : (UploadLink.accepted accept.after).Leads blocks link) :
    link.Answered ∧ Reachable config link.machine := by
  obtain ⟨history, run⟩ := leads
  refine (run.invariant (fun link => link.machine.state.busy = true ∧
    link.Answered ∧ Reachable config link.machine) ⟨serving.busy_after
      (.inr rfl), ?_, ⟨_, serving.run⟩⟩ ?_).2
  · obtain ⟨_, _, _, next_eq⟩ := serving.start (.inr rfl)
    have state : accept.after.state = .writeRequestReceived := by
      rw [next_eq]
      rfl
    intro reached
    simp [UploadLink.accepted, state] at reached
  · rintro ⟨before, move, effects, after⟩ ⟨busy, answered, reachable⟩ admitted
    have admits : before.step blocks move = some (after, effects) := admitted
    cases uploadCases admits with
    | session permitted stepped =>
        obtain ⟨past, run⟩ := reachable
        have cases := run.wellFormed.busyCases busy stepped
          (before.ongoing_of_permits permitted)
        exact ⟨cases.busy busy,
          answered.session run.wellFormed busy permitted stepped,
          ⟨_, run.extend stepped⟩⟩
    | offer reached located => exact ⟨busy, answered, reachable⟩
    | advance known more narrow => exact ⟨busy, answered, reachable⟩

theorem Serving.exists_ready
    (serving : Serving config .initServeWriteRequest past accept []
      accept.after)
    (leads : (UploadLink.accepted accept.after).Leads blocks link)
    (sends : link.machine.state = .sendingAck)
    (idle : link.machine.tasks = [])
    (isOpen : link.machine.data.socketOpen = true)
    (good : link.machine.data.fileStream.good = true) :
    ∃ next, link.Leads blocks next ∧ next.Ready ∧
      next.machine.data.lastSavedBlock =
        link.machine.data.lastSavedBlock := by
  obtain ⟨answered, earlier, run⟩ := serving.answered leads
  obtain ⟨outgoing, sent⟩ := answered (.inl sends)
  obtain ⟨steps, handles, meets⟩ := run.wellFormed.exists_sent Accepting
    (by rw [sends]; rfl) idle isOpen ⟨by simp, by simp⟩
    (by rw [sends]; exact .ackSent) (by simp [State.operation])
  obtain ⟨next, continues, machine, answers⟩ :=
    UploadLink.exists_leads_of_handles handles meets (by simp)
  have clean := Reachable.clean ⟨earlier, run⟩ (.inl sends)
  refine ⟨next, continues, ⟨?_, ?_, ?_, ?_, ?_⟩, ?_⟩
  · rw [machine]
    rfl
  · rw [machine]
    rfl
  · rw [machine]
    exact good
  · rw [machine]
    exact clean
  · rw [answers, machine, entering_data (by simp), ← outgoing]
    exact List.mem_append_left _ sent
  · rw [machine]
    rfl

theorem UploadLink.exists_cursor
    (answered : Packet.ackPacket
      (UInt16.ofNat link.machine.data.lastSavedBlock) ∈ link.answers)
    (behind : link.machine.data.lastSavedBlock ≤ link.cursor)
    (ahead : link.cursor ≤ link.machine.data.lastSavedBlock + 1)
    (more : link.machine.data.lastSavedBlock < blocks.length)
    (narrow : blocks.length < 65536) :
    ∃ next, link.Leads blocks next ∧ next.machine = link.machine ∧
      next.answers = link.answers ∧
        next.cursor = link.machine.data.lastSavedBlock + 1 := by
  rcases Nat.lt_or_eq_of_le behind with ahead' | here
  · exact ⟨link, .refl link, rfl, rfl, Nat.le_antisymm ahead ahead'⟩
  · rw [here] at answered more ⊢
    exact ⟨_, leads_advance answered more (by omega), rfl, rfl, rfl⟩

/-- A session at its regular place gets the next block of its client. -/
theorem Serving.exists_upload_round
    (serving : Serving config .initServeWriteRequest past accept []
      accept.after)
    (fits : ∀ block ∈ blocks, block.length ≤ 65503)
    (narrow : blocks.length < 65536)
    (leads : (UploadLink.accepted accept.after).Leads blocks link)
    (ready : link.Ready)
    (more : link.machine.data.lastSavedBlock < blocks.length) :
    ∃ next, link.Leads blocks next ∧ next.Ready ∧
      next.machine.data.lastSavedBlock =
        link.machine.data.lastSavedBlock + 1 := by
  obtain ⟨history, run⟩ := id leads
  obtain ⟨trace, twin, reached, same⟩ := serving.refines_upload run
  have sound := sound_of_run reached
  have behind := sound.behind
  have ahead := sound.ahead
  rw [same.taken, same.cursor, ← same.count] at behind ahead
  obtain ⟨middle, goes, machine, answers, cursor⟩ :=
    link.exists_cursor ready.answered behind ahead more narrow
  have located : blockAt blocks (link.machine.data.lastSavedBlock + 1) =
      some blocks[link.machine.data.lastSavedBlock] :=
    List.getElem?_eq_getElem more
  let packet := Packet.dataPacket
    (UInt16.ofNat (link.machine.data.lastSavedBlock + 1))
    blocks[link.machine.data.lastSavedBlock]
  let offering : UploadLink :=
    { middle with offered := middle.offered ++ [packet] }
  have offers : middle.Leads blocks offering :=
    UploadLink.leads_offer (Nat.le_of_eq cursor.symm) located
  have short : packet.length ≤ 65507 := by
    have bound := fits _ (List.getElem_mem more)
    simp only [packet, Packet.dataPacket, List.length_append,
      Packet.header_length]
    omega
  have follows : Follows link.machine ⟨packet, short⟩ := by
    refine ⟨ready.waits, ready.idle, ?_, Packet.opCode_dataPacket _ _,
      Packet.word_dataPacket _ _⟩
    simp [packet, Packet.dataPacket]
  obtain ⟨steps, saving, handles, meets, sends, idle, isOpen, good, count⟩ :=
    same.wellFormed.exists_saved ready.waits ready.idle ready.good
      ready.noError follows (by omega)
  rw [← machine] at handles
  obtain ⟨saved, saves, machine_eq, _⟩ : ∃ saved : UploadLink,
      offering.Leads blocks saved ∧ saved.machine = saving ∧ _ :=
    UploadLink.exists_leads_of_handles handles meets (by
      intro sender datagram received
      rw [Completion.received.injEq] at received
      rw [← received.2]
      exact List.mem_append_right _ (List.mem_singleton_self _))
  have onward := (goes.trans offers).trans saves
  rw [← machine_eq] at sends idle isOpen good count
  obtain ⟨next, waits, settled, kept⟩ :=
    serving.exists_ready (leads.trans onward) sends idle isOpen good
  exact ⟨next, onward.trans waits, settled, kept.trans count⟩

/-- From its regular place an upload can be finished, by induction on the
blocks that are left. -/
theorem Serving.exists_uploaded
    (serving : Serving config .initServeWriteRequest past accept []
      accept.after)
    (fits : ∀ block ∈ blocks, block.length ≤ 65503)
    (narrow : blocks.length < 65536) (left : Nat)
    (leads : (UploadLink.accepted accept.after).Leads blocks link)
    (ready : link.Ready)
    (bound : blocks.length ≤ link.machine.data.lastSavedBlock + left) :
    ∃ last, link.Leads blocks last ∧ last.Ready ∧
      blocks.length ≤ last.machine.data.lastSavedBlock := by
  induction left generalizing link with
  | zero => exact ⟨link, .refl link, ready, bound⟩
  | succ left ih =>
      rcases Nat.lt_or_ge link.machine.data.lastSavedBlock blocks.length
        with more | done
      · obtain ⟨next, continues, settled, count⟩ :=
          serving.exists_upload_round fits narrow leads ready more
        obtain ⟨last, ends, regular, all⟩ :=
          ih (leads.trans continues) settled (by omega)
        exact ⟨last, continues.trans ends, regular, all⟩
      · exact ⟨link, .refl link, ready, done⟩

end Rounds

/-- From every state of an upload in which the session waits for data or sends
an ACK, the client can still upload all of its blocks. -/
theorem upload_can_finish (config : Config) (past : List Step)
    (accept : Step) (blocks : List Bytes) (link : UploadLink)
    (serving : Serving config .initServeWriteRequest past accept []
      accept.after)
    (fits : ∀ block ∈ blocks, block.length ≤ 65503)
    (narrow : blocks.length < 65536)
    (leads : (UploadLink.accepted accept.after).Leads blocks link)
    (regular : link.machine.state = .waitingForData ∨
      link.machine.state = .sendingAck)
    (idle : link.machine.tasks = [])
    (isOpen : link.machine.data.socketOpen = true)
    (good : link.machine.data.fileStream.good = true) :
    ∃ last, link.Leads blocks last ∧ last.written = blocks ∧
      Packet.ackPacket (UInt16.ofNat blocks.length) ∈ last.answers := by
  obtain ⟨next, continues, ready⟩ :
      ∃ next, link.Leads blocks next ∧ next.Ready := by
    rcases regular with waits | sends
    · obtain ⟨answered, reachable⟩ := serving.answered leads
      obtain ⟨outgoing, sent⟩ := answered (.inr waits)
      rw [outgoing] at sent
      exact ⟨link, .refl link, waits, idle, good,
        reachable.clean (.inr waits), sent⟩
    · obtain ⟨next, continues, ready, _⟩ :=
        serving.exists_ready leads sends idle isOpen good
      exact ⟨next, continues, ready⟩
  obtain ⟨last, ends, settled, all⟩ := serving.exists_uploaded fits narrow
    blocks.length (leads.trans continues) ready (Nat.le_add_left _ _)
  have onward := continues.trans ends
  obtain ⟨history, run⟩ := leads.trans onward
  obtain ⟨trace, twin, reached, same⟩ := serving.refines_upload run
  have prefixed := (sound_of_run reached).prefixed
  rw [same.taken] at prefixed
  rw [same.count] at all
  have whole := prefixed.eq_of_length_le all
  have answered := settled.answered
  rw [same.count, whole] at answered
  exact ⟨last, onward, whole, answered⟩

section Examples

open UploadMove in
/-- The first block was saved, and three of its ACKs are lost. -/
private def lostAcks :
    List (UploadMove × (UploadLink → Option UploadMove)) :=
  granting ++
    [alone .advance, alone (.offer 1),
      completes (.received .client (smallBlock 1 7)),
      completes (.sent false), completes .receiveFailed,
      completes (.sent false), completes .receiveFailed, alone (.offer 1)]

/-- An upload that lost two ACKs can be finished. -/
theorem lost_acks_can_finish :
    ∃ past accept link last,
      Serving .loopback .initServeWriteRequest past accept [] accept.after ∧
        (UploadLink.accepted accept.after).Leads [[7], [8]] link ∧
          link.machine.state = .sendingAck ∧ link.written = [[7]] ∧
            link.Leads [[7], [8]] last ∧ last.written = [[7], [8]] := by
  obtain ⟨past, accept, history, link, serving, run, passes⟩ :=
    exists_upload_of_execute lostAcks
      (fun _ link => decide (link.machine.state = .sendingAck) &&
        link.machine.tasks.isEmpty && link.machine.data.socketOpen &&
          link.machine.data.fileStream.good &&
            decide (link.written = [[7]]) &&
              decide (link.machine.data.resendCount = 2))
      (by decide +kernel)
  simp only [Bool.and_eq_true, decide_eq_true_eq, List.isEmpty_iff] at passes
  obtain ⟨⟨⟨⟨⟨sends, idle⟩, isOpen⟩, good⟩, written⟩, _⟩ := passes
  have leads : (UploadLink.accepted accept.after).Leads [[7], [8]] link :=
    ⟨history, run⟩
  obtain ⟨last, continues, whole, _⟩ := upload_can_finish .loopback past
    accept [[7], [8]] link serving (by decide) (by decide) leads (.inr sends)
    idle isOpen good
  exact ⟨past, accept, link, last, serving, leads, sends, written, continues,
    whole⟩

end Examples

end MsmTftp
