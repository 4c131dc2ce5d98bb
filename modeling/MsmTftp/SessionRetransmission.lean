import MsmTftp.Retransmission
import MsmTftp.SessionDownloadNumbers

/-!
# Retransmission in downloads

While the client sends nothing but ACKs of packets it was sent, in any order
and any number of times, a download never answers with an error.  An old ACK
triggers no packet, so a packet is sent again for a time-out only, and at most
three times.
-/

namespace MsmTftp

open CellBuffer TransitionSystem Retransmission

/-- The OACK or DATA packet that the step forms. -/
def Step.announced (step : Step) : Option Bytes :=
  if step.fires .formDataPacket || step.fires .formOackPacket then
    some step.after.data.outgoing
  else none

/-- The OACK and DATA packets formed, each once. -/
def announced (history : List Step) : List Bytes :=
  history.filterMap Step.announced

/-- The event that the step processes is a time-out. -/
def Step.timedOut (step : Step) : Bool :=
  step.before.tasks == [.process .timedOut]

/-- What the step sends; it is sent again when a time-out is processed. -/
def Step.transmissions (step : Step) : List (Transmission Bytes) :=
  (step.outputs.filterMap Effect.packet).map fun sent =>
    ⟨sent.1, step.timedOut⟩

/-- What a history sends. -/
def transmissions (history : List Step) : List (Transmission Bytes) :=
  history.flatMap Step.transmissions

/-- The first packet is an ACK of four bytes of the second one, a DATA packet
or an OACK. -/
def Packet.acknowledges (ack packet : Bytes) : Bool :=
  ack.length == 4 && Packet.opCode ack == .acknowledgment &&
    (Packet.opCode packet == .data && Packet.word ack == Packet.word packet ||
      Packet.opCode packet == .optionAcknowledgment && Packet.word ack == 0)

/-- What the step receives from the agreed endpoint is an ACK of a packet sent
before. -/
def Step.acknowledgesSent (past : List Step) (step : Step) : Bool :=
  match step.input with
  | .complete (.received sender datagram) =>
      sender != step.before.data.agreedRemoteEndpoint ||
        (sentPackets past).any fun sent =>
          Packet.acknowledges datagram.bytes sent.1
  | _ => true

/-- The agreed endpoint sends ACKs only, also of packets in `past`. -/
def acksOnlyFrom : List Step → List Step → Bool
  | _, [] => true
  | past, step :: rest =>
      step.acknowledgesSent past && acksOnlyFrom (past ++ [step]) rest

/-- In the history, the agreed endpoint sends nothing but ACKs of packets it
was sent before. -/
def acksOnly (history : List Step) : Bool :=
  acksOnlyFrom [] history

/-- The packets announced are an OACK or DATA packets with numbers from one to
the number of blocks sent. -/
structure Announces (packets : List Bytes) (count : Nat) : Prop where
  distinct : packets.Nodup
  bound : count ≤ 65536
  formed : ∀ packet ∈ packets,
    Packet.opCode packet = .optionAcknowledgment ∨
      ∃ number payload, 1 ≤ number ∧ number ≤ count ∧
        packet = Packet.dataPacket (UInt16.ofNat number) payload

/-- Where a download stands between the packets it announced and what it
sent. -/
def Paces (packets : List Bytes) (sent : List (Transmission Bytes))
    (data : SessionData) : State → Prop
  | .readRequestReceived =>
      packets = [] ∧ sent = [] ∧ data.lastSentBlock = 0
  | .dataRead => ∃ earlier count,
      packets = earlier ++ [data.outgoing] ∧ Paced 3 sent earlier count
  | .sendingData | .waitingForAck => ∃ earlier,
      packets = earlier ++ [data.outgoing] ∧
        Paced 3 sent packets data.resendCount
  | _ => False

/-- The invariant of a download whose client sends only ACKs. -/
structure Pacing (packets : List Bytes) (sent : List (Transmission Bytes))
    (data : SessionData) (state : State) : Prop where
  noError : data.hasError = false
  sound : data.fileStream.bad = false
  announces : Announces packets data.lastSentBlock
  paces : Paces packets sent data state

section Histories

variable {history : List Step} {step : Step}

theorem announced_concat (history : List Step) (step : Step) :
    announced (history ++ [step]) =
      announced history ++ step.announced.toList := by
  cases formed : step.announced <;> simp [announced, formed]

theorem transmissions_concat (history : List Step) (step : Step) :
    transmissions (history ++ [step]) =
      transmissions history ++ step.transmissions := by
  simp [transmissions]

theorem transmissions_packet (history : List Step) :
    (transmissions history).map Transmission.packet =
      (sentPackets history).map Prod.fst := by
  induction history with
  | nil => rfl
  | cons step history ih =>
      have here : step.transmissions.map Transmission.packet =
          (step.outputs.filterMap Effect.packet).map Prod.fst := by
        simp [Step.transmissions, Function.comp_def]
      have ih : (history.flatMap Step.transmissions).map
          Transmission.packet =
            (sentPackets history).map Prod.fst := ih
      simp only [transmissions, sentPackets, List.flatMap_cons,
        List.map_append, List.filterMap_append, here, ih]

theorem acksOnlyFrom_append (past first second : List Step) :
    acksOnlyFrom past (first ++ second) =
      (acksOnlyFrom past first && acksOnlyFrom (past ++ first) second) := by
  induction first generalizing past with
  | nil => simp [acksOnlyFrom]
  | cons step first ih => simp [acksOnlyFrom, ih, Bool.and_assoc]

theorem acksOnly_concat :
    acksOnly (history ++ [step]) = true ↔
      acksOnly history = true ∧ step.acknowledgesSent history = true := by
  simp [acksOnly, acksOnlyFrom_append, acksOnlyFrom]

end Histories

section Announcing

variable {packets : List Bytes} {count : Nat} {packet payload ack : Bytes}

theorem announces_nil : Announces [] 0 :=
  ⟨List.nodup_nil, by omega, by simp⟩

theorem announces_oack
    (opcode : Packet.opCode packet = .optionAcknowledgment) :
    Announces [packet] 0 :=
  ⟨by simp, by omega, by simp [opcode]⟩

/-- The number of a new block differs from those of the earlier ones. -/
theorem Announces.concat (announces : Announces packets count)
    (below : count < 65536) (payload : Bytes) :
    Announces
      (packets ++ [Packet.dataPacket (UInt16.ofNat (count + 1)) payload])
      (count + 1) := by
  obtain ⟨distinct, bound, formed⟩ := announces
  refine ⟨?_, by omega, ?_⟩
  · refine List.nodup_append.mpr ⟨distinct, by simp, ?_⟩
    rintro packet member next here rfl
    rw [List.mem_singleton] at here
    rcases formed packet member with oack | ⟨number, other, one, most, rfl⟩
    · rw [here, Packet.opCode_dataPacket] at oack
      exact absurd oack (by decide)
    · have words := congrArg Packet.word here
      rw [Packet.word_dataPacket, Packet.word_dataPacket] at words
      have numbers := congrArg UInt16.toNat words
      rw [UInt16.toNat_ofNat', UInt16.toNat_ofNat'] at numbers
      omega
  · intro packet member
    rcases List.mem_append.mp member with earlier | last
    · rcases formed packet earlier with oack | ⟨number, other, one, most, rfl⟩
      · exact .inl oack
      · exact .inr ⟨number, other, one, by omega, rfl⟩
    · rw [List.mem_singleton.mp last]
      exact .inr ⟨count + 1, payload, by omega, Nat.le_refl _, rfl⟩

theorem Announces.word_le (announces : Announces packets count)
    (member : packet ∈ packets)
    (acknowledges : Packet.acknowledges ack packet = true) :
    ack.length = 4 ∧ Packet.opCode ack = .acknowledgment ∧
      (Packet.word ack).toNat ≤ count := by
  simp only [Packet.acknowledges, Bool.and_eq_true, Bool.or_eq_true,
    beq_iff_eq] at acknowledges
  obtain ⟨⟨length, opcode⟩, matched⟩ := acknowledges
  refine ⟨length, opcode, ?_⟩
  rcases matched with ⟨block, same⟩ | ⟨oack, zero⟩
  · rcases announces.formed packet member with
      other | ⟨number, payload, one, most, rfl⟩
    · rw [other] at block
      exact absurd block (by decide)
    · rw [same, Packet.word_dataPacket, UInt16.toNat_ofNat']
      exact Nat.le_trans (Nat.mod_le _ _) most
  · rw [zero]
    exact Nat.zero_le count

end Announcing

section Steps

variable {packets : List Bytes} {sent : List (Transmission Bytes)}
  {data : SessionData} {source target state : State}
  {event : Option EventKind} {action : Action} {environment : Environment}
  {happens : Option Event}

theorem Paces.ne_accepting (paces : Paces packets sent data state) :
    state ≠ .accepting := by
  rintro rfl
  exact paces.elim

/-- The packets sent were announced, and are sent in that order. -/
theorem Paces.exists_paced (paces : Paces packets sent data state) :
    ∃ earlier count, earlier <+: packets ∧ Paced 3 sent earlier count := by
  cases state with
  | readRequestReceived =>
      obtain ⟨rfl, rfl, _⟩ := paces
      exact ⟨[], 0, List.prefix_rfl, .nil⟩
  | dataRead =>
      obtain ⟨earlier, count, rfl, paced⟩ := paces
      exact ⟨earlier, count, List.prefix_append _ _, paced⟩
  | sendingData =>
      obtain ⟨_, _, paced⟩ := paces
      exact ⟨packets, _, List.prefix_rfl, paced⟩
  | waitingForAck =>
      obtain ⟨_, _, paced⟩ := paces
      exact ⟨packets, _, List.prefix_rfl, paced⟩
  | _ => exact paces.elim

theorem Pacing.start (completion : Completion)
    (pacing : Pacing packets sent data state) :
    Pacing packets sent (completion.start data).1 state := by
  obtain ⟨noError, sound, announces, paces⟩ := pacing
  cases completion <;> exact ⟨noError, sound, announces, paces⟩

/-- An ACK that is not old has the number of the last block, which fits 16
bits. -/
theorem lastSentBlock_lt_of_current (received : data.hasAckReceived = true)
    (current : data.isOldAck = false) : data.lastSentBlock < 65536 := by
  simp only [SessionData.hasAckReceived, Bool.and_eq_true,
    decide_eq_true_eq] at received
  simp only [SessionData.isOldAck, decide_eq_false_iff_not] at current
  have small := data.receivedWord.toNat_lt
  omega

theorem Pacing.form (noError : data.hasError = false)
    (sound : data.fileStream.bad = false)
    (announces : Announces packets data.lastSentBlock)
    (below : data.lastSentBlock < 65536) {count : Nat}
    (paced : Paced 3 sent packets count)
    (clean : environment.readError = none) :
    Pacing (packets ++ [(formDataPacket environment data).outgoing]) sent
      (formDataPacket environment data) .dataRead := by
  have delivered : (data.streamAfterRead environment).bad = false := by
    rw [bad_streamAfterRead sound, clean]
    simp
  have outgoing := outgoing_formDataPacket delivered
  have formed := formDataPacket_of_not_bad delivered
  have count_eq : (formDataPacket environment data).lastSentBlock =
      data.lastSentBlock + 1 := by
    rw [formed]
  refine ⟨?_, ?_, ?_, packets, count, rfl, paced⟩
  · rw [formed]
    exact noError
  · rw [formed]
    exact delivered
  · rw [outgoing, count_eq]
    exact announces.concat below _

/-- The packets a firing announces. -/
def announcedBy (action : Action) (acted : SessionData) : List Bytes :=
  if action = .formDataPacket ∨ action = .formOackPacket then
    [acted.outgoing]
  else []

/-- What a firing sends. -/
def transmittedBy (event : Option EventKind) (target : State)
    (acted : SessionData) : List (Transmission Bytes) :=
  if target.operation = some .send then
    [⟨acted.outgoing, event == some .timedOut⟩]
  else []

theorem FireCases.timedOut {machine next : Machine} {row : Row}
    {happens : Option Event} {exitEffects effects : List Effect}
    (cases : FireCases machine row environment happens exitEffects effects
      next) :
    (machine.tasks == [.process .timedOut]) =
      (happens.map Event.kind == some .timedOut) := by
  rw [cases.running]
  match happens with
  | none => rfl
  | some (.requestReceived request) => rfl
  | some .acceptingFailed => rfl
  | some .packetSent => rfl
  | some .packetReceived => rfl
  | some .timedOut => rfl

/-- Rows other than `Reset` keep the pace; a packet of the agreed endpoint
must be an ACK of a packet that was sent. -/
theorem Pacing.fire (pacing : Pacing packets sent data source)
    (environment : Environment) (happens : Option Event)
    (firing : Firing data source event action target)
    (ongoing : action ≠ .reset)
    (clean : action = .formDataPacket → environment.readError = none)
    (acknowledged : event = some .packetReceived →
      data.fromAgreedEndpoint = true → data.hasAckReceived = true) :
    Pacing
      (packets ++ announcedBy action (action.run environment happens data).1)
      (sent ++ transmittedBy event target
        (action.run environment happens data).1)
      (action.run environment happens data).1 target := by
  obtain ⟨noError, sound, announces, paces⟩ := pacing
  cases firing with
  | firstBlock _ plain =>
      obtain ⟨rfl, rfl, unsent⟩ := paces
      have formed := Pacing.form noError sound announces (by omega) .nil
        (clean rfl)
      simpa [announcedBy, transmittedBy, State.operation, Action.run]
        using formed
  | announceOptions options =>
      obtain ⟨rfl, rfl, unsent⟩ := paces
      have formed : Pacing [(formOackPacket data).outgoing] []
          (formOackPacket data) .dataRead :=
        ⟨noError, sound, announces_oack opCode_formOackPacket, [], 0, rfl,
          .nil⟩
      simpa [announcedBy, transmittedBy, State.operation, Action.run]
        using formed
  | blockRead _ =>
      obtain ⟨earlier, count, rfl, paced⟩ := paces
      have next : Pacing (earlier ++ [data.outgoing])
          (sent ++ [⟨(resetTimeOut data).outgoing, false⟩])
          (resetTimeOut data) .sendingData :=
        ⟨noError, sound, announces, earlier, rfl, paced.first data.outgoing⟩
      simpa [announcedBy, transmittedBy, State.operation, Action.run] using next
  | dataSent =>
      have next : Pacing packets sent data .waitingForAck :=
        ⟨noError, sound, announces, paces⟩
      simpa [announcedBy, transmittedBy, State.operation, Action.run] using next
  | resendData retry =>
      obtain ⟨earlier, rfl, paced⟩ := paces
      have below : data.resendCount < 3 := of_decide_eq_true retry
      have next : Pacing (earlier ++ [data.outgoing])
          (sent ++ [⟨(countTimeOut data).outgoing, true⟩])
          (countTimeOut data) .sendingData :=
        ⟨noError, sound, announces, earlier, rfl, paced.again below⟩
      simpa [announcedBy, transmittedBy, State.operation, Action.run] using next
  | notAck agreed other =>
      rw [acknowledged rfl agreed] at other
      simp at other
  | oldAck ignored =>
      have next : Pacing packets sent data .waitingForAck :=
        ⟨noError, sound, announces, paces⟩
      simpa [announcedBy, transmittedBy, State.operation, Action.run] using next
  | nextBlock agreed received current more =>
      obtain ⟨_, _, paced⟩ := paces
      have formed := Pacing.form noError sound announces
        (lastSentBlock_lt_of_current received current) paced (clean rfl)
      simpa [announcedBy, transmittedBy, State.operation, Action.run]
        using formed
  | refuseRead error => simp [noError] at error
  | readFailed error => simp [noError] at error
  | finish final => exact absurd rfl ongoing
  | giveUpRead exhausted => exact absurd rfl ongoing
  | errorSent => exact absurd rfl ongoing
  | _ => exact paces.elim

end Steps

section Transfers

variable {config : Config} {past rest history : List Step} {accept : Step}
  {machine next : Machine}

theorem Serving.hasAckReceived
    (serving : Serving config .initServeReadRequest past accept rest machine)
    (pacing : Pacing (announced rest) (transmissions rest) machine.data
      machine.state)
    (acks : acksOnly rest = true)
    (running : machine.tasks = [.process .packetReceived])
    (agreed : machine.data.fromAgreedEndpoint = true) :
    machine.data.hasAckReceived = true := by
  obtain ⟨earlier, receipt, sender, datagram, rfl, receives, _, data_eq⟩ :=
    serving.received running
  have acknowledges := (acksOnly_concat.mp acks).2
  rw [data_eq] at agreed ⊢
  have known : sender = receipt.before.data.agreedRemoteEndpoint :=
    beq_iff_eq.mp agreed
  simp only [Step.acknowledgesSent, receives, known, bne_self_eq_false,
    Bool.false_or, List.any_eq_true] at acknowledges
  obtain ⟨packet, member, acknowledges⟩ := acknowledges
  have announcedPacket : packet.1 ∈ announced (earlier ++ [receipt]) := by
    obtain ⟨packets, count, before, paced⟩ := pacing.paces.exists_paced
    have inside : packet.1 ∈ (transmissions (earlier ++ [receipt])).map
        Transmission.packet := by
      rw [transmissions_packet, sentPackets_concat, List.map_append]
      exact List.mem_append_left _ (List.mem_map_of_mem member)
    obtain ⟨transmission, isSent, same⟩ := List.mem_map.mp inside
    rw [← same]
    exact before.subset (paced.mem isSent)
  obtain ⟨length, opcode, bound⟩ :=
    pacing.announces.word_le announcedPacket acknowledges
  rw [data_eq] at bound
  exact (hasAckReceived_received sender datagram).mpr ⟨length, opcode, bound⟩

theorem Serving.pacing_step {input : Input} {effects : List Effect}
    (serving : Serving config .initServeReadRequest past accept rest machine)
    (pacing : Pacing (announced rest) (transmissions rest) machine.data
      machine.state)
    (acks : acksOnly rest = true)
    (stepped : machine.step input = some (next, effects))
    (ongoing : ¬ Step.Fires ⟨machine, input, effects, next⟩ .reset)
    (clean : Step.readsCleanly ⟨machine, input, effects, next⟩ = true) :
    Pacing (announced (rest ++ [⟨machine, input, effects, next⟩]))
      (transmissions (rest ++ [⟨machine, input, effects, next⟩])) next.data
      next.state := by
  have wellFormed : machine.WellFormed config := serving.run.wellFormed
  rw [announced_concat, transmissions_concat]
  rcases wellFormed.complete_or_fire stepped pacing.paces.ne_accepting with
    ⟨completion, rfl⟩ | ⟨row, environment, rfl⟩
  · obtain ⟨_, packets, _⟩ := silent_of_not_fire stepped (by simp)
    cases stepCases stepped with
    | complete settled idle started =>
        simpa [Step.announced, Step.fires, Step.transmissions, packets]
          using pacing.start completion
  · obtain ⟨event, exitEffects, cases⟩ := wellFormed.fireCases stepped
    have resets : row.action ≠ .reset := fun resets =>
      ongoing ⟨row, environment, rfl, resets⟩
    have reads : row.action = .formDataPacket →
        environment.readError = none := by
      intro forms
      simpa [Step.readsCleanly, forms] using clean
    have received : event.map Event.kind = some .packetReceived →
        machine.data.fromAgreedEndpoint = true →
          machine.data.hasAckReceived = true := by
      intro kind agreed
      apply serving.hasAckReceived pacing acks _ agreed
      rw [cases.running, Event.eq_packetReceived kind]
      rfl
    have acted :=
      pacing.fire environment event cases.firing resets reads received
    have entered : next.data =
        (row.action.run environment event machine.data).1 :=
      cases.data_eq acted.paces.ne_accepting
    have announces : (Step.announced
        ⟨machine, .fire row environment, effects, next⟩).toList =
          announcedBy row.action next.data := by
      simp only [Step.announced, Step.fires, announcedBy, Bool.or_eq_true,
        decide_eq_true_eq]
      split <;> rfl
    have transmits : Step.transmissions
        ⟨machine, .fire row environment, effects, next⟩ =
          transmittedBy (event.map Event.kind) row.target next.data := by
      simp only [Step.transmissions, Step.timedOut, transmittedBy,
        cases.timedOut, cases.packets, entered]
      split <;> rfl
    rw [announces, transmits, entered, cases.state_eq]
    exact acted

theorem Serving.pacing
    (serving : Serving config .initServeReadRequest past accept rest machine)
    (granted : accept.after.data.hasError = false)
    (clean : ∀ step ∈ rest, Step.readsCleanly step = true)
    (acks : acksOnly rest = true) :
    Pacing (announced rest) (transmissions rest) machine.data
      machine.state := by
  induction rest using List.reverseRecOn generalizing machine with
  | nil =>
      obtain rfl := System.run_nil.mp serving.split.2.2
      have sound := serving.sound
      obtain ⟨_, _, _, next_eq⟩ := serving.start (.inl rfl)
      have entered : accept.after.state = .readRequestReceived := by
        rw [next_eq]
        rfl
      have unsent := (serving.counters_start (.inl rfl)).1
      rw [entered] at sound ⊢
      refine ⟨granted, sound, ?_, rfl, rfl, unsent⟩
      rw [unsent]
      exact announces_nil
  | append_singleton history step ih =>
      obtain ⟨earlier, admitted⟩ := serving.before
      obtain ⟨_, _, rfl⟩ := System.run_concat.mp serving.split.2.2
      have before := ih earlier
        (fun other member => clean other (List.mem_append_left _ member))
        (acksOnly_concat.mp acks).1
      exact earlier.pacing_step before (acksOnly_concat.mp acks).1 admitted
        (serving.ongoing step (by simp)) (clean step (by simp))

end Transfers

/-- While its reads are clean and its client sends nothing but ACKs of packets
it was sent, a download whose request was granted sends no error packet and no
packet more than four times.  What it sends is one burst for each packet
announced: the packet itself, and then the same bytes once for each of at most
three time-outs. -/
theorem download_sends_in_bursts (config : Config) (past : List Step)
    (accept : Step) (rest : List Step) (machine : Machine)
    (serving : Serving config .initServeReadRequest past accept rest machine)
    (granted : accept.after.data.hasError = false)
    (clean : ∀ step ∈ rest, Step.readsCleanly step = true)
    (acks : acksOnly rest = true) :
    (∀ sent ∈ sentPackets rest, Packet.opCode sent.1 ≠ .error) ∧
    (∀ packet, ((sentPackets rest).map Prod.fst).count packet ≤ 4) ∧
    ∃ bursts : List (Bytes × Nat),
      bursts.map Prod.fst <+: announced rest ∧ (announced rest).Nodup ∧
        (∀ entry ∈ bursts, entry.2 ≤ 3) ∧
          transmissions rest =
            bursts.flatMap fun entry => burst entry.1 entry.2 := by
  have pacing := serving.pacing granted clean acks
  obtain ⟨packets, count, before, paced⟩ := pacing.paces.exists_paced
  refine ⟨?_, ?_, ?_⟩
  · intro sent member error
    have inside : sent.1 ∈ (transmissions rest).map Transmission.packet := by
      rw [transmissions_packet]
      exact List.mem_map_of_mem member
    obtain ⟨transmission, isSent, same⟩ := List.mem_map.mp inside
    rw [← same] at error
    rcases pacing.announces.formed _ (before.subset (paced.mem isSent)) with
      oack | ⟨number, payload, _, _, block⟩
    · rw [error] at oack
      exact absurd oack (by decide)
    · rw [block, Packet.opCode_dataPacket] at error
      exact absurd error (by decide)
  · intro packet
    rw [← transmissions_packet]
    exact paced.count_le
      (List.Sublist.nodup before.sublist pacing.announces.distinct) packet
  · obtain ⟨bursts, rfl, bounded, whole, _⟩ := paced.exists_bursts
    exact ⟨bursts, before, pacing.announces.distinct, bounded, whole⟩

section Examples

/-- A request of the client for a time-out of two seconds. -/
private def twoSeconds : Datagram where
  bytes := (requestOf .readRequest).bytes ++
    (TimeOutDecoder.kTimeOutOption ++ [0]) ++ (asciiBytes ['2'] ++ [0])
  fits := by decide

/-- The OACK and the only block are sent twice each, and the repeated ACK of
the OACK triggers nothing. -/
theorem oack_and_block_repeated :
    ∃ past accept rest machine,
      Serving .loopback .initServeReadRequest past accept rest machine ∧
        (transmissions rest).map Transmission.repeated =
          [false, true, false, true] ∧
        (∀ sent ∈ sentPackets rest, Packet.opCode sent.1 ≠ .error) ∧
        (∀ packet, ((sentPackets rest).map Prod.fst).count packet ≤ 4) ∧
        ∃ bursts : List (Bytes × Nat),
          bursts.map Prod.fst <+: announced rest ∧ (announced rest).Nodup ∧
            (∀ entry ∈ bursts, entry.2 ≤ 3) ∧
              transmissions rest =
                bursts.flatMap fun entry => burst entry.1 entry.2 := by
  obtain ⟨past, accept, rest, machine, serving, passes⟩ :=
    exists_serving_of_converse .initServeReadRequest
      [(.accepted .client twoSeconds, {}), (.sent false, {}),
        (.receiveFailed, {}), (.sent false, {}),
        (.received .client (ackOf 0), {}), (.sent false, {}),
        (.received .client (ackOf 0), {}), (.receiveFailed, {})]
      (fun accept rest _ => decide (accept.after.data.hasError = false) &&
        rest.all Step.readsCleanly && acksOnly rest &&
          decide ((transmissions rest).map Transmission.repeated =
            [false, true, false, true]))
      (by decide +kernel)
  simp only [Bool.and_eq_true, decide_eq_true_eq, List.all_eq_true]
    at passes
  obtain ⟨⟨⟨granted, clean⟩, acks⟩, flags⟩ := passes
  exact ⟨past, accept, rest, machine, serving, flags,
    download_sends_in_bursts .loopback past accept rest machine serving
      granted clean acks⟩

/-- A request for a file that does not exist is answered by an error packet,
although the client sends nothing more. -/
theorem missing_file_refused :
    ∃ past accept rest machine,
      Serving .loopback .initServeReadRequest past accept rest machine ∧
        (∀ step ∈ rest, Step.readsCleanly step = true) ∧
          acksOnly rest = true ∧
            ∃ sent ∈ sentPackets rest, Packet.opCode sent.1 = .error := by
  obtain ⟨past, accept, rest, machine, serving, passes⟩ :=
    exists_serving_of_converse .initServeReadRequest
      [(.accepted .client (requestOf .readRequest),
        { readFilePath := fun _ _ => none })]
      (fun _ rest _ => rest.all Step.readsCleanly && acksOnly rest &&
        (sentPackets rest).any fun sent =>
          decide (Packet.opCode sent.1 = .error))
      (by decide +kernel)
  simp only [Bool.and_eq_true, decide_eq_true_eq, List.all_eq_true,
    List.any_eq_true] at passes
  obtain ⟨⟨clean, acks⟩, refused⟩ := passes
  exact ⟨past, accept, rest, machine, serving, clean, acks, refused⟩

end Examples

end MsmTftp
