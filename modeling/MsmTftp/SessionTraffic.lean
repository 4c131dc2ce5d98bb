import MsmTftp.SessionListening
import MsmTftp.SessionRole

/-!
# What a session does on its own

Datagrams prompt a session, and so does a receive of the listener that fails.
Between two prompts a handler takes a bounded number of steps, a packet is
sent again at most three times, and then the session gives up.  Both bounds
are kept as a potential of the session: what it spends without a prompt it has
saved at the last one.
-/

namespace MsmTftp

open CellBuffer TransitionSystem

namespace Input

/-- A datagram has arrived. -/
def brings : Input → Bool
  | complete (.accepted _ _) | complete (.received _ _) => true
  | _ => false

/-- The session does not bring this about itself. -/
def prompts : Input → Bool
  | complete (.accepted _ _) | complete .acceptFailed
  | complete (.received _ _) => true
  | _ => false

end Input

/-- The number of datagrams a history handles. -/
def datagrams (history : List Step) : Nat :=
  history.countP fun step => step.input.brings

/-- The number of steps of a history that the session is prompted to. -/
def promptings (history : List Step) : Nat :=
  history.countP fun step => step.input.prompts

namespace State

/-- The packets a session sends on its own from a state on, after a number of
time-outs. -/
def sendsLeft (resends : Nat) : State → Nat
  | accepting | resetted | sendingError => 0
  | sendingAck | sendingData | waitingForData | waitingForAck => 3 - resends
  | writeRequestReceived | dataWritten | readRequestReceived | dataRead => 4

/-- The packets a session sends on its own from an event on. -/
def sendsBefore (resends : Nat) (state : State) : Option EventKind → Nat
  | none | some .packetSent | some .timedOut => state.sendsLeft resends
  | some .acceptingFailed => 0
  | some .requestReceived | some .packetReceived => 4

/-- The steps a session takes on its own from a state on: four for each packet
that is sent again. -/
def stepsLeft (resends : Nat) : State → Nat
  | accepting => 0
  | resetted => 1
  | sendingError => 3
  | waitingForData | waitingForAck => 4 * (3 - resends) + 3
  | sendingAck | sendingData => 4 * (3 - resends) + 5
  | writeRequestReceived | dataWritten | dataRead => 18
  | readRequestReceived => 19

/-- The steps a session takes on its own from an event on. -/
def stepsBefore (resends : Nat) (state : State) : Option EventKind → Nat
  | none => state.stepsLeft resends
  | some .packetSent | some .timedOut => state.stepsLeft resends - 1
  | some .acceptingFailed => 2
  | some .packetReceived => 19
  | some .requestReceived => 20

end State

namespace Machine

/-- The packets a session still sends when nothing prompts it. -/
def sendsLeft (machine : Machine) : Nat :=
  match machine.tasks with
  | [] => machine.state.sendsBefore machine.data.resendCount none
  | [.process event] =>
      machine.state.sendsBefore machine.data.resendCount (some event.kind)
  | _ => 4

/-- The steps a session still takes when nothing prompts it. -/
def stepsLeft (machine : Machine) : Nat :=
  match machine.tasks with
  | [] => machine.state.stepsBefore machine.data.resendCount none
  | [.process event] =>
      machine.state.stepsBefore machine.data.resendCount (some event.kind)
  | [.parse _] => 21
  | _ => 22

/-- The session waits for its listener, or the handler of a send has thrown
because the data socket is closed. -/
def Rests (machine : Machine) : Prop :=
  machine.state = .accepting ∧ machine.tasks = [] ∨
    machine.tasks = [.process .packetSent] ∧
      machine.data.socketOpen = false

end Machine

section Potentials

variable {config : Config} {machine next : Machine} {input : Input}
  {effects : List Effect}

theorem State.sendsLeft_le (state : State) (resends : Nat) :
    state.sendsLeft resends ≤ 4 := by
  cases state <;> simp only [sendsLeft] <;> omega

theorem State.stepsLeft_le (state : State) (resends : Nat) :
    state.stepsLeft resends ≤ 19 := by
  cases state <;> simp only [stepsLeft] <;> omega

theorem State.sendsBefore_le (state : State) (resends : Nat)
    (event : Option EventKind) : state.sendsBefore resends event ≤ 4 := by
  have atMost := state.sendsLeft_le resends
  unfold sendsBefore
  split <;> omega

theorem State.stepsBefore_le (state : State) (resends : Nat)
    (event : Option EventKind) : state.stepsBefore resends event ≤ 20 := by
  have atMost := state.stepsLeft_le resends
  unfold stepsBefore
  split <;> omega

theorem Machine.sendsLeft_le (machine : Machine) : machine.sendsLeft ≤ 4 := by
  unfold sendsLeft
  split
  · exact State.sendsBefore_le _ _ _
  · exact State.sendsBefore_le _ _ _
  · exact Nat.le_refl 4

theorem Machine.stepsLeft_le (machine : Machine) :
    machine.stepsLeft ≤ 22 := by
  have atMost (event : Option EventKind) := machine.state.stepsBefore_le
    machine.data.resendCount event
  unfold stepsLeft
  split
  · exact Nat.le_trans (atMost _) (by omega)
  · exact Nat.le_trans (atMost _) (by omega)
  · omega
  · omega

theorem Firing.sends_le {data : SessionData} {source target : State}
    {action : Action} (environment : Environment) {event : Option Event}
    (firing : Firing data source (event.map Event.kind) action target) :
    (if target.operation = some .send then 1 else 0) +
        target.sendsLeft (action.run environment event data).1.resendCount ≤
      source.sendsBefore data.resendCount (event.map Event.kind) := by
  generalize event.map Event.kind = kind at firing ⊢
  cases firing with
  | resendAck retry =>
      have below : data.resendCount < 3 := by
        simpa [SessionData.canRetry] using retry
      simp only [Action.run, countTimeOut, State.operation, if_pos,
        State.sendsLeft, State.sendsBefore]
      omega
  | resendData retry =>
      have below : data.resendCount < 3 := by
        simpa [SessionData.canRetry] using retry
      simp only [Action.run, countTimeOut, State.operation, if_pos,
        State.sendsLeft, State.sendsBefore]
      omega
  | _ =>
      simp [Action.run, State.operation, State.sendsLeft, State.sendsBefore]
        <;> omega

theorem Firing.steps_lt {data : SessionData} {source target : State}
    {action : Action} (environment : Environment) {event : Option Event}
    (firing : Firing data source (event.map Event.kind) action target) :
    target.stepsLeft (action.run environment event data).1.resendCount <
      source.stepsBefore data.resendCount (event.map Event.kind) := by
  generalize event.map Event.kind = kind at firing ⊢
  cases firing with
  | resendAck retry =>
      have below : data.resendCount < 3 := by
        simpa [SessionData.canRetry] using retry
      simp only [Action.run, countTimeOut, State.stepsLeft, State.stepsBefore]
      omega
  | resendData retry =>
      have below : data.resendCount < 3 := by
        simpa [SessionData.canRetry] using retry
      simp only [Action.run, countTimeOut, State.stepsLeft, State.stepsBefore]
      omega
  | _ =>
      simp only [Action.run, State.stepsLeft, State.stepsBefore]
      omega

theorem start_packets (completion : Completion) (data : SessionData) :
    (completion.start data).2.2.filterMap Effect.packet = [] := by
  cases completion <;> rfl

theorem entering_resendCount {state : State} {data : SessionData} :
    (Machine.entering state data).data.resendCount = data.resendCount := by
  simp only [Machine.entering, entry_data]
  split <;> rfl

/-- The packets that are left pay for those a step sends. -/
theorem Machine.WellFormed.sends_le (wellFormed : machine.WellFormed config)
    (stepped : machine.step input = some (next, effects)) :
    (effects.filterMap Effect.packet).length + next.sendsLeft ≤
      machine.sendsLeft + if input.brings then 4 else 0 := by
  have atMost := next.sendsLeft_le
  cases input with
  | complete completion =>
      cases stepCases stepped with
      | complete settled idle started =>
          rw [start_packets, List.length_nil, Nat.zero_add]
          cases completion with
          | accepted sender datagram => exact Nat.le_add_left_of_le atMost
          | received sender datagram => exact Nat.le_add_left_of_le atMost
          | _ =>
              simp [Completion.start, Machine.sendsLeft, idle,
                State.sendsBefore, Event.kind, Input.brings]
  | parse =>
      cases stepCases stepped with
      | parse settled running =>
          have full : machine.sendsLeft = 4 := by
            simp [Machine.sendsLeft, running]
          simpa [full, Input.brings] using atMost
  | reject =>
      have accepts := wellFormed.accepting_of_reject stepped
      cases stepCases stepped with
      | @reject event tasks settled running refused =>
          cases tasks with
          | nil =>
              simp [Machine.sendsLeft, accepts, State.sendsBefore,
                State.sendsLeft]
          | cons task tasks =>
              have full : machine.sendsLeft = 4 := by
                simp [Machine.sendsLeft, running]
              simpa [full, Input.brings] using atMost
  | fire row environment =>
      obtain ⟨event, exitEffects, cases⟩ := wellFormed.fireCases stepped
      have spent := cases.firing.sends_le environment
      have before : machine.sendsLeft =
          machine.state.sendsBefore machine.data.resendCount
            (event.map Event.kind) := by
        cases event <;> simp [Machine.sendsLeft, cases.running]
      have after : next.sendsLeft = row.target.sendsLeft
          (row.action.run environment event
            machine.data).1.resendCount := by
        rw [cases.next_eq, ← entering_resendCount]
        rfl
      rw [cases.packets, before, after]
      split at spent <;> simp_all [Input.brings]

/-- The steps that are left pay for every step. -/
theorem Machine.WellFormed.steps_lt (wellFormed : machine.WellFormed config)
    (stepped : machine.step input = some (next, effects)) :
    next.stepsLeft < machine.stepsLeft + if input.prompts then 23 else 0 := by
  cases input with
  | complete completion =>
      have atMost := next.stepsLeft_le
      cases stepCases stepped with
      | complete settled idle started =>
          have drives := (wellFormed.drives idle started).1
          cases completion with
          | sent failed =>
              cases state : machine.state <;>
                simp_all [State.operation, Completion.operation,
                  Completion.start, Machine.stepsLeft, State.stepsBefore,
                  State.stepsLeft, Event.kind, Input.prompts]
          | receiveFailed =>
              cases state : machine.state <;>
                simp_all [State.operation, Completion.operation,
                  Completion.start, Machine.stepsLeft, State.stepsBefore,
                  State.stepsLeft, Event.kind, Input.prompts]
          | _ =>
              simp only [Input.prompts, if_true]
              omega
  | parse =>
      have accepts := wellFormed.accepting_of_parse stepped
      have shape := wellFormed.shape
      cases stepCases stepped with
      | @parse bytesReceived tasks settled running =>
          rw [accepts, running] at shape
          generalize machine.outstanding = outstanding at shape
          cases shape
          simp [Machine.stepsLeft, running, State.stepsBefore, Event.kind,
            Input.prompts]
  | reject =>
      have accepts := wellFormed.accepting_of_reject stepped
      have shape := wellFormed.shape
      cases stepCases stepped with
      | @reject event tasks settled running refused =>
          rw [accepts, running] at shape
          generalize machine.outstanding = outstanding at shape
          cases shape <;>
            simp_all [Machine.stepsLeft, State.stepsBefore, State.stepsLeft,
              State.operation, Event.kind, Input.prompts]
  | fire row environment =>
      obtain ⟨event, exitEffects, cases⟩ := wellFormed.fireCases stepped
      have spent := cases.firing.steps_lt environment
      have before : machine.stepsLeft =
          machine.state.stepsBefore machine.data.resendCount
            (event.map Event.kind) := by
        cases event <;> simp [Machine.stepsLeft, cases.running]
      have after : next.stepsLeft = row.target.stepsLeft
          (row.action.run environment event
            machine.data).1.resendCount := by
        rw [cases.next_eq, ← entering_resendCount]
        rfl
      rw [before, after]
      exact spent

end Potentials

section Resting

variable {config : Config} {machine : Machine}

theorem Input.brings_eq_false {input : Input}
    (unprompted : input.prompts = false) : input.brings = false := by
  cases input with
  | complete completion =>
      cases completion <;> simp_all [Input.prompts, Input.brings]
  | _ => rfl

theorem exists_step_of_event {event : Event} {tasks : List Task}
    {exitEffects : List Effect}
    (settled : machine.state.operation ≠ none)
    (running : machine.tasks = .process event :: tasks)
    (exits : machine.state.exit machine.data = some exitEffects) :
    ∃ input, input.prompts = false ∧ machine.step input ≠ none := by
  have waits := settled_iff.mpr settled
  cases rows : enabledRows machine.state (some event.kind) machine.data with
  | nil =>
      refine ⟨.reject, rfl, ?_⟩
      simp [Machine.step, running, waits, rows]
  | cons row others =>
      have enabled : row ∈ enabledRows machine.state (some event.kind)
          machine.data := by
        simp [rows]
      obtain ⟨_, sources, events, _⟩ := mem_enabledRows.mp enabled
      refine ⟨.fire row {}, rfl, ?_⟩
      simp [Machine.step, Machine.fire, Row.fire, running, events, waits,
        enabled, sources, exits]

theorem exists_exit (state : State) {data : SessionData}
    (isOpen : data.socketOpen = true) :
    ∃ exitEffects, state.exit data = some exitEffects := by
  cases state <;> simp [State.exit, cancelOperations, isOpen]

/-- A session that can do nothing on its own rests. -/
theorem Machine.WellFormed.rests (wellFormed : machine.WellFormed config)
    (stuck : ∀ input, input.prompts = false → machine.step input = none) :
    machine.Rests := by
  have never {event : Event} {tasks : List Task} {exitEffects : List Effect}
      (settled : machine.state.operation ≠ none)
      (running : machine.tasks = .process event :: tasks)
      (exits : machine.state.exit machine.data = some exitEffects) :
      False := by
    obtain ⟨input, unprompted, steps⟩ :=
      exists_step_of_event settled running exits
    exact steps (stuck input unprompted)
  have shape := wellFormed.shape
  have isOpen := wellFormed.socketOpen
  obtain ⟨state, data, outstanding, tasks⟩ := machine
  dsimp only at *
  cases shape with
  | @waiting _ operation drives =>
      cases operation with
      | listenerReceive => exact .inl ⟨State.eq_accepting drives, rfl⟩
      | send =>
          have completes := stuck (.complete (.sent false)) rfl
          simp [Machine.step, returned_iff, drives, Completion.operation]
            at completes
      | receive =>
          have completes := stuck (.complete .receiveFailed) rfl
          simp [Machine.step, returned_iff, drives, Completion.operation]
            at completes
  | stuck => exact .inl ⟨rfl, rfl⟩
  | acceptFailed => exact (never (by simp [State.operation]) rfl rfl).elim
  | malformed => exact (never (by simp [State.operation]) rfl rfl).elim
  | requested => exact (never (by simp [State.operation]) rfl rfl).elim
  | parsing =>
      have parses := stuck .parse rfl
      simp [Machine.step, settled_iff, State.operation] at parses
  | sent drives =>
      cases socket : data.socketOpen with
      | false => exact .inr ⟨rfl, socket⟩
      | true =>
          obtain ⟨_, exits⟩ := exists_exit state socket
          exact (never (by simp [drives]) rfl exits).elim
  | received drives =>
      obtain ⟨_, exits⟩ := exists_exit state (isOpen drives)
      exact (never (by simp [drives]) rfl exits).elim
  | timedOut drives =>
      obtain ⟨_, exits⟩ := exists_exit state (isOpen drives)
      exact (never (by simp [drives]) rfl exits).elim
  | passing passes =>
      obtain ⟨action, target, firing⟩ := exists_completion_firing data passes
      obtain ⟨row, _, fires⟩ := exists_step_of_firing ⟨state, data, [], []⟩
        {} none (by simp) rfl rfl firing (exit_of_passing passes)
      rw [stuck (.fire row {}) rfl] at fires
      cases fires

theorem Machine.Rests.stuck (rests : machine.Rests)
    (wellFormed : machine.WellFormed config) {input : Input}
    (unprompted : input.prompts = false) : machine.step input = none := by
  cases taken : machine.step input with
  | none => rfl
  | some result =>
      obtain ⟨next, effects⟩ := result
      exfalso
      rcases rests with ⟨accepts, idle⟩ | ⟨sent, closed⟩
      · cases stepCases taken with
        | @complete completion settled _ started =>
            have drives := (wellFormed.drives idle started).1
            rw [accepts] at drives
            cases completion <;>
              simp_all [State.operation, Completion.operation, Input.prompts]
        | parse settled running => simp [idle] at running
        | @fire row environment event tasks _ settled running firing =>
            cases event with
            | none =>
                have passes := firing.operation_eq_none
                simp [accepts, State.operation] at passes
            | some event => simp [idle] at running
        | reject settled running refused => simp [idle] at running
      · have shape := wellFormed.shape
        rw [sent] at shape
        have drives : machine.state.operation = some .send := by
          generalize machine.state = state at shape ⊢
          generalize machine.outstanding = outstanding at shape
          cases shape
          assumption
        cases stepCases taken with
        | complete settled idle started => simp [sent] at idle
        | parse settled running => simp [sent] at running
        | fire settled running firing exits =>
            rw [exit_socketOpen exits (.inl drives)] at closed
            cases closed
        | reject settled running refused =>
            have accepts := wellFormed.accepting_of_reject taken
            simp [accepts, State.operation] at drives

end Resting

section Bounds

variable {config : Config} {start finish : Machine} {history : List Step}

theorem sentPackets_length (history : List Step) :
    (sentPackets history).length =
      (history.map fun step =>
        (step.outputs.filterMap Effect.packet).length).sum := by
  simp [sentPackets, List.filterMap_flatMap, List.length_flatMap]

theorem sum_credit {Member : Type*} (counted : Member → Bool) (credit : Nat)
    (members : List Member) :
    (members.map fun member => if counted member then credit else 0).sum =
      credit * members.countP counted := by
  induction members with
  | nil => rfl
  | cons member members ih =>
      rw [List.map_cons, List.sum_cons, ih, List.countP_cons]
      split
      · rw [Nat.mul_succ, Nat.add_comm]
      · simp

theorem sends_bounded (wellFormed : start.WellFormed config)
    (run : session.Run start history finish) :
    (sentPackets history).length + finish.sendsLeft ≤
      start.sendsLeft + 4 * datagrams history := by
  rw [sentPackets_length, datagrams, ← sum_credit]
  exact run.cost_le (Machine.WellFormed config) wellFormed
    (fun _ before admitted => before.step admitted) _ _ Machine.sendsLeft
    fun _ before admitted => before.sends_le admitted

theorem steps_bounded (wellFormed : start.WellFormed config)
    (run : session.Run start history finish) :
    history.length + finish.stepsLeft ≤
      start.stepsLeft + 23 * promptings history := by
  have paid := run.cost_le (Machine.WellFormed config) wellFormed
    (fun _ before admitted => before.step admitted) (fun _ => 1)
    (fun step => if step.input.prompts then 23 else 0) Machine.stepsLeft
    fun step before admitted => by
      have spent := before.steps_lt admitted
      omega
  rw [sum_credit] at paid
  simpa [promptings] using paid

end Bounds

/-- The datagrams that reach a session pay for all it does: it sends at most
four packets for each of them, and takes at most 23 steps for each and for
each failed receive of the listener. -/
theorem traffic_bounded (config : Config) (history : List Step)
    (machine : Machine) (run : Reaches config history machine) :
    (sentPackets history).length ≤ 4 * datagrams history ∧
      history.length ≤ 23 * promptings history := by
  have wellFormed := Machine.started_wellFormed config
  have sends := sends_bounded wellFormed run
  have steps := steps_bounded wellFormed run
  have nothing : (Machine.started config).sendsLeft = 0 ∧
      (Machine.started config).stepsLeft = 0 :=
    ⟨rfl, rfl⟩
  omega

/-- A read request that does not end in NUL, from a client that is not heard
of again. -/
def vanishedClient : List (Completion × Environment) :=
  [(.accepted .client
      ⟨(requestOf .readRequest).bytes ++ [120],
        by simp [requestOf, asciiBytes, kOctetMode]⟩, {}),
    (.sent false, {}), (.receiveFailed, {}), (.sent false, {}),
    (.receiveFailed, {}), (.sent false, {}), (.receiveFailed, {}),
    (.sent false, {}), (.receiveFailed, {})]

/-- The vanished client is sent the first block four times, in 23 steps. -/
theorem vanished_client_bounded :
    ∃ history machine, Reaches .loopback history machine ∧
      (sentPackets history).length = 4 ∧ history.length = 23 ∧
        4 ≤ 4 * datagrams history ∧ 23 ≤ 23 * promptings history := by
  obtain ⟨history, machine, _, run, passes⟩ :=
    exists_reaches_of_converse .loopback vanishedClient
      (fun history _ => decide ((sentPackets history).length = 4 ∧
        history.length = 23)) (by decide +kernel)
  obtain ⟨sends, steps⟩ := of_decide_eq_true passes
  have bounded := traffic_bounded .loopback history machine run
  rw [sends, steps] at bounded
  exact ⟨history, machine, run, sends, steps, bounded⟩

end MsmTftp
