import MsmTftp.SessionRole

/-!
# Where a transfer comes from

Outside `Accepting` and `Resetted` every machine of a run is in some transfer:
a handler of the listener received a datagram, its request was accepted, and
no `Reset` has happened since.  The endpoint the packets go to is the sender
of that datagram.
-/

namespace MsmTftp

open CellBuffer TransitionSystem

/-- The history ends within the handler of a datagram that the listener
received from the endpoint. -/
def ReceivedFrom (endpoint : Endpoint) (history : List Step) : Prop :=
  ∃ earlier receipt between datagram,
    history = earlier ++ receipt :: between ∧
      receipt.input = .complete (.accepted endpoint datagram) ∧
        ∀ step ∈ between, Step.Internal step

/-- A transfer for a request that the endpoint sent. -/
structure TransferFrom (config : Config) (endpoint : Endpoint)
    (action : Action) (past : List Step) (accept : Step) (rest : List Step)
    (machine : Machine) : Prop where
  serving : Serving config action past accept rest machine
  serves : action = .initServeReadRequest ∨ action = .initServeWriteRequest
  origin : ReceivedFrom endpoint past

/-- The handler of the listener has a request to parse or to process. -/
def Machine.HoldsRequest (machine : Machine) : Prop :=
  ∃ task ∈ machine.tasks, (∃ bytesReceived, task = .parse bytesReceived) ∨
    ∃ request, task = .process (.requestReceived request)

/-- Where a machine of a run comes from. -/
structure Origin (config : Config) (history : List Step)
    (machine : Machine) : Prop where
  run : Reaches config history machine
  busy : machine.state.busy = true → ∃ action past accept rest,
    history = past ++ accept :: rest ∧
      TransferFrom config machine.data.agreedRemoteEndpoint action past accept
        rest machine
  listens : machine.state = .accepting → machine.HoldsRequest →
    ReceivedFrom machine.data.agreedRemoteEndpoint history

section Origins

variable {config : Config} {history : List Step} {machine next : Machine}
  {input : Input} {effects : List Effect} {endpoint : Endpoint}
  {environment : Environment} {event : Option Event} {data : SessionData}
  {action : Action}

theorem ReceivedFrom.concat (received : ReceivedFrom endpoint history)
    {step : Step} (internal : step.Internal) :
    ReceivedFrom endpoint (history ++ [step]) := by
  obtain ⟨earlier, receipt, between, datagram, rfl, receives, inside⟩ :=
    received
  refine ⟨earlier, receipt, between ++ [step], datagram, by simp, receives,
    ?_⟩
  intro other member
  rcases List.mem_append.mp member with before | last
  · exact inside other before
  · rw [List.mem_singleton.mp last]
    exact internal

theorem BusyCases.agreedRemoteEndpoint
    (cases : BusyCases machine input effects next) :
    next.data.agreedRemoteEndpoint = machine.data.agreedRemoteEndpoint := by
  cases cases with
  | @complete completion idle uses drives =>
      cases completion with
      | accepted sender datagram => exact absurd rfl uses
      | _ => rfl
  | fire cases ongoing busy data_eq =>
      rw [data_eq]
      exact (run_keepsSession _ _ _ ongoing).agreed

theorem Firing.target_of_resetted {target : State} {kind : Option EventKind}
    (firing : Firing data .resetted kind action target) :
    target = .accepting := by
  cases firing
  rfl

theorem Firing.target_of_reset {source target : State}
    {kind : Option EventKind}
    (firing : Firing data source kind .reset target) :
    target = .resetted := by
  cases firing <;> rfl

theorem Firing.of_accepting {target : State} {kind : Option EventKind}
    (firing : Firing data .accepting kind action target) :
    action = .reset ∧ target = .resetted ∨
      kind = some .requestReceived ∧ target.busy = true ∧
        (action = .initServeReadRequest ∨
          action = .initServeWriteRequest) := by
  cases firing <;> simp [State.busy]

theorem Origin.step_busy (origin : Origin config history machine)
    (busy : machine.state.busy = true)
    (stepped : machine.step input = some (next, effects)) :
    Origin config (history ++ [⟨machine, input, effects, next⟩]) next := by
  have run := origin.run.extend stepped
  have wellFormed : machine.WellFormed config := origin.run.wellFormed
  by_cases resets : Step.Fires ⟨machine, input, effects, next⟩ .reset
  · obtain ⟨row, environment, rfl, resets⟩ := resets
    obtain ⟨event, exitEffects, cases⟩ := wellFormed.fireCases stepped
    have firing := cases.firing
    rw [resets] at firing
    have target : next.state = .resetted := by
      rw [cases.state_eq]
      exact firing.target_of_reset
    exact ⟨run, by simp [target, State.busy], by simp [target]⟩
  · have cases := wellFormed.busyCases busy stepped resets
    have after := cases.busy busy
    refine ⟨run, fun _ => ?_, fun accepts => ?_⟩
    · obtain ⟨action, past, accept, rest, rfl, transfer⟩ := origin.busy busy
      obtain ⟨serving, serves, received⟩ := transfer
      refine ⟨action, past, accept,
        rest ++ [⟨machine, input, effects, next⟩], by simp, ?_, serves, ?_⟩
      · exact serving.extend ⟨rfl, stepped, rfl⟩ (by simpa using resets)
      · rw [cases.agreedRemoteEndpoint]
        exact received
    · simp [accepts, State.busy] at after

theorem Origin.step_resetted (origin : Origin config history machine)
    (resetted : machine.state = .resetted)
    (stepped : machine.step input = some (next, effects)) :
    Origin config (history ++ [⟨machine, input, effects, next⟩]) next := by
  have run := origin.run.extend stepped
  have wellFormed : machine.WellFormed config := origin.run.wellFormed
  rcases wellFormed.complete_or_fire stepped (by simp [resetted]) with
    ⟨completion, rfl⟩ | ⟨row, environment, rfl⟩
  · cases stepCases stepped with
    | complete settled idle started =>
        have waits := settled_iff.mp settled
        simp [resetted, State.operation] at waits
  · obtain ⟨event, exitEffects, cases⟩ := wellFormed.fireCases stepped
    have firing := cases.firing
    rw [resetted] at firing
    have accepts : next.state = .accepting := by
      rw [cases.state_eq]
      exact firing.target_of_resetted
    refine ⟨run, by simp [accepts, State.busy], ?_⟩
    intro _ holds
    obtain ⟨task, member, _⟩ := holds
    rw [cases.tasks_eq] at member
    simp at member

/-- A request is accepted, or the session starts over. -/
theorem Origin.fire_accepting (origin : Origin config history machine)
    (accepts : machine.state = .accepting) {row : Row}
    {environment : Environment}
    (stepped : machine.step (.fire row environment) = some (next, effects)) :
    Origin config
      (history ++ [⟨machine, .fire row environment, effects, next⟩]) next := by
  have run := origin.run.extend stepped
  have wellFormed : machine.WellFormed config := origin.run.wellFormed
  obtain ⟨event, exitEffects, cases⟩ := wellFormed.fireCases stepped
  have firing := cases.firing
  rw [accepts] at firing
  rcases firing.of_accepting with ⟨_, target⟩ | ⟨kind, busy, serves⟩
  · have resetted : next.state = .resetted := cases.state_eq.trans target
    exact ⟨run, by simp [resetted, State.busy], by simp [resetted]⟩
  · obtain ⟨request, rfl⟩ := Event.eq_requestReceived kind
    have received := origin.listens accepts
      ⟨.process (.requestReceived request), by simp [cases.running],
        .inr ⟨request, rfl⟩⟩
    have same : next.data.agreedRemoteEndpoint =
        machine.data.agreedRemoteEndpoint := by
      rw [cases.data_eq (State.ne_accepting_of_busy busy)]
      apply SessionData.KeepsSession.agreed (run_keepsSession _ _ _ ?_)
      intro resets
      rw [resets] at serves
      simp at serves
    refine ⟨run, fun _ => ⟨row.action, history, _, [], rfl, ?_⟩, ?_⟩
    · rw [same]
      exact ⟨⟨run, ⟨row, environment, rfl, rfl⟩, by simp⟩, serves, received⟩
    · intro again
      rw [cases.state_eq] at again
      exact absurd again (State.ne_accepting_of_busy busy)

/-- The listener receives a request, and the session parses and accepts it. -/
theorem Origin.step_accepting (origin : Origin config history machine)
    (accepts : machine.state = .accepting)
    (stepped : machine.step input = some (next, effects)) :
    Origin config (history ++ [⟨machine, input, effects, next⟩]) next := by
  have run := origin.run.extend stepped
  cases input with
  | complete completion =>
      cases stepCases stepped with
      | complete settled idle started =>
          refine ⟨run, fun busy => ?_, fun _ holds => ?_⟩
          · exact absurd accepts (State.ne_accepting_of_busy busy)
          · cases completion with
            | accepted sender datagram =>
                exact ⟨history, _, [], datagram, rfl, rfl, by simp⟩
            | _ =>
                obtain ⟨task, member, holds⟩ := holds
                simp only [Completion.start, List.mem_singleton] at member
                subst member
                simp at holds
  | parse =>
      cases stepCases stepped with
      | @parse bytesReceived tasks settled running =>
          have received := origin.listens accepts
            ⟨.parse bytesReceived, by simp [running], .inl ⟨_, rfl⟩⟩
          refine ⟨run, fun busy => ?_, fun _ _ => ?_⟩
          · exact absurd accepts (State.ne_accepting_of_busy busy)
          · exact received.concat fun completion => by simp
  | reject =>
      cases stepCases stepped with
      | @reject event tasks settled running refused =>
          refine ⟨run, fun busy => ?_, fun _ holds => ?_⟩
          · exact absurd accepts (State.ne_accepting_of_busy busy)
          · obtain ⟨task, member, request⟩ := holds
            have before : task ∈ machine.tasks := by
              rw [running]
              exact List.mem_cons_of_mem _ member
            have received := origin.listens accepts ⟨task, before, request⟩
            exact received.concat fun completion => by simp
  | fire row environment => exact origin.fire_accepting accepts stepped

theorem Reaches.origin (run : Reaches config history machine) :
    Origin config history machine := by
  apply System.Run.history_invariant run (fun _ => True) (fun _ _ => trivial)
    (Origin config)
  · refine ⟨rfl, by simp [Machine.started, State.busy], fun _ holds => ?_⟩
    obtain ⟨task, member, _⟩ := holds
    simp [Machine.started] at member
  · intro past step origin admitted _
    cases state : step.before.state with
    | accepting => exact origin.step_accepting state admitted
    | resetted => exact origin.step_resetted state admitted
    | _ => exact origin.step_busy (by simp [state, State.busy]) admitted

end Origins

end MsmTftp
