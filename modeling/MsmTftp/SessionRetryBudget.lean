import MsmTftp.SessionRetransmission

/-!
# The retry budget

A packet may be sent again three times.  The read request table restores the
counter whenever it sends a new packet.  The write request table never does,
so the time-outs of an upload share one budget.
-/

namespace MsmTftp

open CellBuffer TransitionSystem

/-- The step sends an OACK, a DATA packet or an ACK for the first time. -/
def Step.sendsNews (step : Step) : Bool :=
  step.fires .resetTimeOut || step.fires .formAckPacket

/-- The step forms the packet that follows new progress. -/
def Step.progresses (step : Step) : Bool :=
  step.fires .formDataPacket || step.fires .formOackPacket ||
    step.fires .formAckPacket

/-- The number of time-outs that were processed. -/
def timeOuts (history : List Step) : Nat :=
  history.countP Step.timedOut

/-- The time-outs before the packet that count against its budget: for an ACK
all those of the upload. -/
def spent (before : List Step) (sent : Step) : Nat :=
  if sent.fires .formAckPacket then timeOuts before else 0

/-- A step that processes a time-out sends the packet again, if it is one of
the first three since the packet was sent, and resets the session
otherwise. -/
def KeepsBudget (sent : Step) (after : List Step) (step : Step) : Prop :=
  if timeOuts after < 3 then
    step.outputs.filterMap Effect.packet =
      sent.outputs.filterMap Effect.packet
  else step.Fires .reset

/-- What holds in a transfer after some time-outs. -/
structure Counts (history : List Step) (data : SessionData) (state : State) :
    Prop where
  bound : data.resendCount ≤ 3
  shared : state.writeSide = true → data.resendCount = timeOuts history

/-- While no new packet is formed, the session repeats the packet or is about
to send an error; `count` time-outs were counted. -/
def Repeating (packet : Bytes × Endpoint) (count : Nat) (data : SessionData) :
    State → Prop
  | .sendingAck | .waitingForData | .sendingData | .waitingForAck =>
      data.outgoing = packet.1 ∧ data.agreedRemoteEndpoint = packet.2 ∧
        data.resendCount = count
  | .dataWritten | .sendingError => True
  | _ => False

section Firings

variable {data : SessionData} {source target state : State}
  {event : Option EventKind} {action : Action} {environment : Environment}
  {happens : Option Event} {history : List Step} {count : Nat}
  {packet : Bytes × Endpoint}

theorem Firing.of_timedOut
    (firing : Firing data source (some .timedOut) action target) :
    source.operation = some .receive ∧
      (data.canRetry = true ∧ action = .timeOut ∧
          target.operation = some .send ∨
        data.canRetry = false ∧ action = .reset ∧
          target.operation = none) := by
  cases firing <;> simp_all [State.operation]

/-- The rows that send a new packet. -/
theorem Firing.of_sendsNews (firing : Firing data source event action target)
    (news : action = .resetTimeOut ∨ action = .formAckPacket) :
    event ≠ some .timedOut ∧
      (action = .formAckPacket → source.writeSide = true) ∧
        (target = .sendingData ∨ target = .sendingAck) := by
  cases firing <;> simp_all [State.writeSide]

theorem Counts.fire (counts : Counts history data source)
    (environment : Environment) (happens : Option Event) (step : Step)
    (firing : Firing data source event action target)
    (ongoing : action ≠ .reset) (busy : source.busy = true)
    (timedOut : step.timedOut = (event == some .timedOut)) :
    Counts (history ++ [step]) (action.run environment happens data).1
      target := by
  obtain ⟨bound, shared⟩ := counts
  have counted : timeOuts (history ++ [step]) =
      timeOuts history + if event = some .timedOut then 1 else 0 := by
    simp [timeOuts, timedOut, List.countP_singleton]
  cases firing with
  | errorSent => exact absurd rfl ongoing
  | restart => simp [State.busy] at busy
  | acceptingFailed error => simp [State.busy] at busy
  | acceptWrite noError opcode => simp [State.busy] at busy
  | acceptRead noError opcode => simp [State.busy] at busy
  | giveUpWrite exhausted => exact absurd rfl ongoing
  | giveUpRead exhausted => exact absurd rfl ongoing
  | finish final => exact absurd rfl ongoing
  | resendAck retry =>
      have below : data.resendCount < 3 := of_decide_eq_true retry
      have same := shared rfl
      refine ⟨below, ?_⟩
      intro _
      rw [counted, ← same]
      rfl
  | resendData retry =>
      have below : data.resendCount < 3 := of_decide_eq_true retry
      exact ⟨below, by simp [State.writeSide]⟩
  | firstBlock noError plain =>
      obtain ⟨_, _, _, _, _, _, frame⟩ :=
        formDataPacket_frame environment data
      rw [Action.run, frame]
      exact ⟨bound, by simp [State.writeSide]⟩
  | nextBlock agreed received current more =>
      obtain ⟨_, _, _, _, _, _, frame⟩ :=
        formDataPacket_frame environment data
      rw [Action.run, frame]
      exact ⟨bound, by simp [State.writeSide]⟩
  | newData agreed received new =>
      obtain ⟨_, _, _, _, frame⟩ := writeData_frame environment data
      rw [Action.run, frame]
      refine ⟨bound, ?_⟩
      intro _
      simpa [counted, Action.run] using shared rfl
  | blockRead noError =>
      exact ⟨Nat.zero_le 3, by simp [State.writeSide]⟩
  | grantWrite noError =>
      refine ⟨bound, ?_⟩
      intro _
      simpa [counted, Action.run, formAckPacket] using shared rfl
  | ackSent =>
      refine ⟨bound, ?_⟩
      intro _
      simpa [counted, Action.run] using shared rfl
  | dataSaved noError =>
      refine ⟨bound, ?_⟩
      intro _
      simpa [counted, Action.run, formAckPacket] using shared rfl
  | _ => exact ⟨bound, by simp [State.writeSide]⟩

theorem Repeating.fire (repeating : Repeating packet count data source)
    (environment : Environment) (happens : Option Event)
    (firing : Firing data source event action target)
    (ongoing : action ≠ .reset)
    (quiet : action ≠ .formDataPacket ∧ action ≠ .formOackPacket ∧
      action ≠ .formAckPacket) :
    Repeating packet (count + if event = some .timedOut then 1 else 0)
      (action.run environment happens data).1 target := by
  obtain ⟨noData, noOack, noAck⟩ := quiet
  cases firing with
  | ackSent => exact repeating
  | resendAck retry =>
      obtain ⟨outgoing, endpoint, counted⟩ := repeating
      exact ⟨outgoing, endpoint, by rw [← counted]; rfl⟩
  | notData agreed other => trivial
  | oldData ignored => exact repeating
  | newData agreed received new => trivial
  | dataSaved noError => exact absurd rfl noAck
  | saveFailed error => trivial
  | dataSent => exact repeating
  | resendData retry =>
      obtain ⟨outgoing, endpoint, counted⟩ := repeating
      exact ⟨outgoing, endpoint, by rw [← counted]; rfl⟩
  | notAck agreed other => trivial
  | oldAck ignored => exact repeating
  | nextBlock agreed received current more => exact absurd rfl noData
  | giveUpWrite exhausted => exact absurd rfl ongoing
  | giveUpRead exhausted => exact absurd rfl ongoing
  | finish final => exact absurd rfl ongoing
  | errorSent => exact absurd rfl ongoing
  | _ => exact repeating.elim

theorem Repeating.start {completion : Completion}
    (repeating : Repeating packet count data state)
    (serving : completion.operation ≠ .listenerReceive) :
    Repeating packet count (completion.start data).1 state := by
  cases completion with
  | accepted sender datagram => exact absurd rfl serving
  | _ => exact repeating

theorem Repeating.ne_accepting (repeating : Repeating packet count data state) :
    state ≠ .accepting := by
  rintro rfl
  exact repeating.elim

theorem Repeating.waiting (repeating : Repeating packet count data state)
    (waits : state.operation = some .receive) :
    data.outgoing = packet.1 ∧ data.agreedRemoteEndpoint = packet.2 ∧
      data.resendCount = count := by
  cases state with
  | waitingForData => exact repeating
  | waitingForAck => exact repeating
  | _ => simp [State.operation] at waits

end Firings

section Steps

variable {config : Config} {machine next : Machine} {input : Input}
  {effects : List Effect} {history : List Step} {count : Nat}
  {packet : Bytes × Endpoint}

theorem timeOuts_concat (history : List Step) (step : Step) :
    timeOuts (history ++ [step]) = timeOuts history + timeOuts [step] :=
  List.countP_append

theorem timeOuts_of_idle (idle : machine.tasks = []) :
    timeOuts [⟨machine, input, effects, next⟩] = 0 := by
  simp [timeOuts, Step.timedOut, idle]

theorem Counts.step (counts : Counts history machine.data machine.state)
    (busy : machine.state.busy = true)
    (cases : BusyCases machine input effects next) :
    Counts (history ++ [⟨machine, input, effects, next⟩]) next.data
      next.state := by
  cases cases with
  | @complete completion idle uses drives =>
      obtain ⟨bound, shared⟩ := counts
      refine ⟨?_, fun writes => ?_⟩
      · cases completion <;> exact bound
      · rw [timeOuts_concat, timeOuts_of_idle idle]
        cases completion <;> exact shared writes
  | @fire row environment event exitEffects effects next cases ongoing target
      data_eq =>
      rw [cases.state_eq, data_eq]
      exact counts.fire environment event _ cases.firing ongoing busy
        cases.timedOut

theorem Repeating.step
    (repeating : Repeating packet count machine.data machine.state)
    (cases : BusyCases machine input effects next)
    (quiet : Step.progresses ⟨machine, input, effects, next⟩ = false) :
    Repeating packet (count + timeOuts [⟨machine, input, effects, next⟩])
      next.data next.state := by
  cases cases with
  | complete idle uses drives =>
      rw [timeOuts_of_idle idle]
      exact repeating.start uses
  | @fire row environment event exitEffects effects next cases ongoing target
      data_eq =>
      have counted : timeOuts
          [⟨machine, .fire row environment, effects, next⟩] =
            if event.map Event.kind = some .timedOut then 1 else 0 := by
        simp [timeOuts, Step.timedOut, List.countP_singleton, cases.timedOut]
      rw [counted, cases.state_eq, data_eq]
      exact repeating.fire environment event cases.firing ongoing
        (by simpa [Step.progresses, Step.fires, and_assoc] using quiet)

end Steps

section Transfers

variable {config : Config} {action : Action} {past before after : List Step}
  {accept sent : Step} {rest : List Step} {machine next : Machine}
  {input : Input} {effects : List Effect}

theorem Serving.counts
    (serving : Serving config action past accept rest machine)
    (requests : action = .initServeReadRequest ∨
      action = .initServeWriteRequest) :
    Counts rest machine.data machine.state := by
  have fresh := (serving.counters_start requests).2.2
  exact serving.history_invariant requests (fun _ => True)
    (fun _ _ => trivial)
    (fun history machine => Counts history machine.data machine.state)
    ⟨by omega, fun _ => fresh⟩
    fun _ _ _ _ _ _ busy counts cases _ => counts.step busy cases

theorem Serving.repeating_start
    (serving : Serving config action past accept (before ++ sent :: after)
      machine)
    (requests : action = .initServeReadRequest ∨
      action = .initServeWriteRequest)
    (news : sent.sendsNews = true) :
    ∃ packet, sent.outputs.filterMap Effect.packet = [packet] ∧
      Repeating packet (spent before sent) sent.after.data
        sent.after.state := by
  obtain ⟨earlier, admitted⟩ := serving.before
  have counts := earlier.counts requests
  have wellFormed : sent.before.WellFormed config := earlier.run.wellFormed
  obtain ⟨machine, input, effects, next⟩ := sent
  have stepped : machine.step input = some (next, effects) := admitted
  cases input with
  | complete completion => simp [Step.sendsNews, Step.fires] at news
  | parse => simp [Step.sendsNews, Step.fires] at news
  | reject => simp [Step.sendsNews, Step.fires] at news
  | fire row environment =>
      obtain ⟨event, exitEffects, cases⟩ := wellFormed.fireCases stepped
      have news : row.action = .resetTimeOut ∨ row.action = .formAckPacket := by
        simpa [Step.sendsNews, Step.fires] using news
      obtain ⟨_, writes, target⟩ := cases.firing.of_sendsNews news
      have sends : row.target.operation = some .send := by
        rcases target with target | target <;> rw [target] <;> rfl
      have entered : next.data =
          (row.action.run environment event machine.data).1 := by
        apply cases.data_eq
        rcases target with target | target <;> simp [target]
      have packets := cases.packets
      rw [if_pos sends] at packets
      refine ⟨_, packets, ?_⟩
      have counted : (row.action.run environment event
          machine.data).1.resendCount = spent before
            ⟨machine, .fire row environment, effects, next⟩ := by
        rcases news with resets | acks
        · simp [spent, Step.fires, resets, Action.run, resetTimeOut]
        · simpa [spent, Step.fires, acks, Action.run, formAckPacket]
            using counts.shared (writes acks)
      simp only [cases.state_eq, entered]
      rcases target with target | target <;> rw [target] <;>
        exact ⟨rfl, rfl, counted⟩

/-- Until new progress the packet is repeated. -/
theorem Serving.repeating
    (serving : Serving config action past accept (before ++ sent :: after)
      machine)
    (requests : action = .initServeReadRequest ∨
      action = .initServeWriteRequest)
    (news : sent.sendsNews = true)
    (quiet : ∀ step ∈ after, Step.progresses step = false) :
    ∃ packet, sent.outputs.filterMap Effect.packet = [packet] ∧
      Repeating packet (spent before sent + timeOuts after) machine.data
        machine.state := by
  obtain ⟨packet, packets, start⟩ := serving.repeating_start requests news
  obtain ⟨_, _, continues⟩ := serving.split
  obtain ⟨_, _, run⟩ := System.run_split.mp continues
  obtain ⟨wellFormed, admitted⟩ :=
    serving.wellFormed_of_mem (show sent ∈ before ++ sent :: after by simp)
  obtain ⟨busy, cases⟩ := serving.busyCases requests
  have invariant : machine.state.busy = true ∧ Repeating packet
      (spent before sent + timeOuts after) machine.data machine.state := by
    apply busy_invariant run (wellFormed.step admitted) (cases.busy busy)
      (fun step member => serving.ongoing step (by simp [member]))
      (fun step => Step.progresses step = false) quiet
      (fun history machine => Repeating packet
        (spent before sent + timeOuts history) machine.data machine.state)
    · exact start
    · intro history machine input effects next _ _ repeating cases quiet
      rw [timeOuts_concat, ← Nat.add_assoc]
      exact repeating.step cases quiet
  exact ⟨packet, packets, invariant.2⟩

end Transfers

/-- After a packet is sent for the first time, a time-out without further
progress is answered as the packet's own budget demands exactly when no
time-outs count against it or some retries are left.  None count against the
budget of an OACK or a DATA packet. -/
theorem keepsBudget_iff (config : Config) (action : Action)
    (past : List Step) (accept : Step) (before : List Step) (sent : Step)
    (after : List Step) (machine next : Machine) (input : Input)
    (effects : List Effect)
    (requests : action = .initServeReadRequest ∨
      action = .initServeWriteRequest)
    (serving : Serving config action past accept (before ++ sent :: after)
      machine)
    (news : sent.sendsNews = true)
    (quiet : ∀ step ∈ after, Step.progresses step = false)
    (timedOut : machine.tasks = [.process .timedOut])
    (stepped : machine.step input = some (next, effects)) :
    KeepsBudget sent after ⟨machine, input, effects, next⟩ ↔
      spent before sent = 0 ∨ spent before sent + timeOuts after < 3 := by
  obtain ⟨packet, packets, repeating⟩ :=
    serving.repeating requests news quiet
  have bound := (serving.counts requests).bound
  have wellFormed : machine.WellFormed config := serving.run.wellFormed
  rcases wellFormed.complete_or_fire stepped repeating.ne_accepting with
    ⟨completion, rfl⟩ | ⟨row, environment, rfl⟩
  · cases stepCases stepped with
    | complete settled idle started => simp [timedOut] at idle
  · obtain ⟨event, exitEffects, cases⟩ := wellFormed.fireCases stepped
    have firing := cases.firing
    have sends := cases.packets
    rw [cases.event_eq timedOut] at firing
    obtain ⟨waits, answer⟩ := firing.of_timedOut
    obtain ⟨outgoing, endpoint, counted⟩ := repeating.waiting waits
    rw [counted] at bound
    rw [KeepsBudget, packets]
    rcases answer with ⟨retry, again, target⟩ | ⟨exhausted, resets, target⟩
    · have below : machine.data.resendCount < 3 := of_decide_eq_true retry
      rw [again, if_pos target] at sends
      rw [if_pos (by omega)]
      refine iff_of_true ?_ (by omega)
      rw [sends]
      exact congrArg (fun sent => [sent]) (Prod.ext outgoing endpoint)
    · have above : ¬ machine.data.resendCount < 3 :=
        of_decide_eq_false exhausted
      rw [if_neg (by simp [target])] at sends
      split
      · refine iff_of_false ?_ (by omega)
        rw [sends]
        simp
      · exact iff_of_true ⟨row, environment, rfl, resets⟩ (by omega)

section Examples

/-- A check of some step of a history and the steps around it. -/
private def checkSplit (check : List Step → Step → List Step → Bool)
    (history : List Step) : Bool :=
  (List.range history.length).any fun index => history[index]?.any fun step =>
    check (history.take index) step (history.drop (index + 1))

private theorem exists_split_of_check
    {check : List Step → Step → List Step → Bool} {history : List Step}
    (passes : checkSplit check history = true) :
    ∃ before step after, history = before ++ step :: after ∧
      check before step after = true := by
  simp only [checkSplit, List.any_eq_true, Option.any_eq_true] at passes
  obtain ⟨index, _, step, found, passes⟩ := passes
  obtain ⟨bound, here⟩ := List.getElem?_eq_some_iff.mp found
  refine ⟨_, step, _, ?_, passes⟩
  rw [← here, ← List.drop_eq_getElem_cons bound, List.take_append_drop]

private theorem exists_timedOut_of_converse (action : Action)
    (answers : List (Completion × Environment))
    (check : List Step → Step → List Step → Step → Bool)
    (checked : ((Machine.started .loopback).converse answers).map
      (fun result => (List.range result.1.length).any fun index =>
        result.1[index]?.any fun step => checkTransfer action
          (fun _ rest _ => checkSplit (fun before sent after =>
            sent.sendsNews && (after.all fun step => !step.progresses) &&
              step.timedOut && check before sent after step) rest)
          (result.1.take index) step.before) = some true) :
    ∃ past accept before sent after step,
      Serving .loopback action past accept (before ++ sent :: after)
        step.before ∧
      sent.sendsNews = true ∧
      (∀ step ∈ after, Step.progresses step = false) ∧
      step.before.tasks = [.process .timedOut] ∧ session.Admits step ∧
        check before sent after step = true := by
  obtain ⟨history, step, run, admitted, passes⟩ :=
    exists_step_of_converse .loopback answers
      (fun history step => checkTransfer action
        (fun _ rest _ => checkSplit (fun before sent after =>
          sent.sendsNews && (after.all fun step => !step.progresses) &&
            step.timedOut && check before sent after step) rest)
        history step.before) checked
  obtain ⟨past, accept, rest, serving, passes⟩ :=
    exists_serving_of_check run passes
  obtain ⟨before, sent, after, rfl, holds⟩ := exists_split_of_check passes
  simp only [Bool.and_eq_true, List.all_eq_true, Bool.not_eq_true',
    Step.timedOut, beq_iff_eq] at holds
  obtain ⟨⟨⟨news, quiet⟩, timedOut⟩, checked⟩ := holds
  exact ⟨past, accept, before, sent, after, step, serving, news, quiet,
    timedOut, admitted, checked⟩

/-- The fourth time-out after a DATA packet resets a download, although there
was a time-out before it. -/
theorem fourth_timeOut_resets :
    ∃ past accept before sent after, ∃ step : Step,
      Serving .loopback .initServeReadRequest past accept
        (before ++ sent :: after) step.before ∧
      timeOuts before = 1 ∧ timeOuts after = 3 ∧
        KeepsBudget sent after step := by
  obtain ⟨past, accept, before, sent, after, step, serving, news, quiet,
    timedOut, admitted, passes⟩ :=
    exists_timedOut_of_converse .initServeReadRequest
      [(.accepted .client (requestOf .readRequest),
          { content := List.replicate 512 7 }), (.sent false, {}),
        (.receiveFailed, {}), (.sent false, {}),
        (.received .client (ackOf 1), {}), (.sent false, {}),
        (.receiveFailed, {}), (.sent false, {}), (.receiveFailed, {}),
        (.sent false, {}), (.receiveFailed, {}), (.sent false, {}),
        (.receiveFailed, {})]
      (fun before sent after _ => decide (timeOuts before = 1 ∧
        timeOuts after = 3 ∧ spent before sent = 0))
      (by decide +kernel)
  obtain ⟨earlier, later, unspent⟩ := of_decide_eq_true passes
  obtain ⟨machine, input, effects, next⟩ := step
  refine ⟨past, accept, before, sent, after, _, serving, earlier, later, ?_⟩
  exact (keepsBudget_iff .loopback _ past accept before sent after machine
    next input effects (.inl rfl) serving news quiet timedOut admitted).mpr
      (.inl unspent)

/-- After a time-out before its first block, an upload is reset by the third
time-out after the ACK of that block. -/
theorem third_timeOut_resets :
    ∃ past accept before sent after, ∃ step : Step,
      Serving .loopback .initServeWriteRequest past accept
        (before ++ sent :: after) step.before ∧
      sent.sendsNews = true ∧
      (∀ step ∈ after, Step.progresses step = false) ∧
      step.before.tasks = [.process .timedOut] ∧ session.Admits step ∧
      timeOuts before = 1 ∧ timeOuts after = 2 ∧
        step.Fires .reset ∧ ¬ KeepsBudget sent after step := by
  obtain ⟨past, accept, before, sent, after, step, serving, news, quiet,
    timedOut, admitted, passes⟩ :=
    exists_timedOut_of_converse .initServeWriteRequest
      [(.accepted .client (requestOf .writeRequest), {}), (.sent false, {}),
        (.receiveFailed, {}), (.sent false, {}),
        (.received .client ⟨Packet.dataPacket 1 (List.replicate 512 7),
          by decide +kernel⟩, {}), (.sent false, {}),
        (.receiveFailed, {}), (.sent false, {}), (.receiveFailed, {}),
        (.sent false, {}), (.receiveFailed, {})]
      (fun before sent after step => decide (timeOuts before = 1 ∧
        timeOuts after = 2 ∧ sent.outputs.filterMap Effect.packet ≠
          step.outputs.filterMap Effect.packet) && step.fires .reset)
      (by decide +kernel)
  rw [Bool.and_eq_true, decide_eq_true_eq] at passes
  obtain ⟨⟨earlier, later, other⟩, resets⟩ := passes
  refine ⟨past, accept, before, sent, after, step, serving, news, quiet,
    timedOut, admitted, earlier, later, Step.fires_iff.mpr resets, ?_⟩
  intro keeps
  rw [KeepsBudget, later, if_pos (by omega)] at keeps
  exact other keeps.symm

end Examples

end MsmTftp
