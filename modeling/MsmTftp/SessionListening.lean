import MsmTftp.SessionConversation
import MsmTftp.SessionInvariant

/-!
# Sessions that keep listening

`AcceptingFailed` has a row in `Accepting` only for a session with an error,
and no session in `Accepting` has one; a request with another opcode than RRQ
and WRQ enables no row at all.  Either leaves the session in `Accepting`
without a receive, for ever.  These are the only ways to lose a session: as
long as every datagram of the listener is a read or a write request, the
operation that drives the state is outstanding whenever all handlers have
returned.
-/

namespace MsmTftp

open CellBuffer TransitionSystem

/-- An operation whose completion can drive the current state is
outstanding. -/
def Machine.Driven (machine : Machine) : Prop :=
  ∃ operation, machine.state.operation = some operation ∧
    operation ∈ machine.outstanding

/-- The listener's receive does not fail, and the datagram it delivers has the
opcode of a read or a write request. -/
def Step.ServesListener (step : Step) : Prop :=
  match step.input with
  | .complete .acceptFailed => False
  | .complete (.accepted _ datagram) =>
      Packet.opCode datagram.bytes = .readRequest ∨
        Packet.opCode datagram.bytes = .writeRequest
  | _ => True

instance (step : Step) : Decidable step.ServesListener :=
  match step with
  | ⟨_, .complete .acceptFailed, _, _⟩ => inferInstanceAs (Decidable False)
  | ⟨_, .complete (.accepted _ _), _, _⟩ => inferInstanceAs (Decidable (_ ∨ _))
  | ⟨_, .complete (.sent _), _, _⟩ => inferInstanceAs (Decidable True)
  | ⟨_, .complete (.received _ _), _, _⟩ => inferInstanceAs (Decidable True)
  | ⟨_, .complete .receiveFailed, _, _⟩ => inferInstanceAs (Decidable True)
  | ⟨_, .parse, _, _⟩ => inferInstanceAs (Decidable True)
  | ⟨_, .fire _ _, _, _⟩ => inferInstanceAs (Decidable True)
  | ⟨_, .reject, _, _⟩ => inferInstanceAs (Decidable True)

/-- The rest of a listener handler that will raise a request event. -/
def RaisesRequest : List Task → Prop
  | [.process .acceptingFailed, .parse _] => True
  | [.parse _] => True
  | [.process (.requestReceived _)] => True
  | _ => False

/-- In `Accepting` the listener is armed, or its handler is about to raise a
request that a row accepts. -/
def Machine.Listening (machine : Machine) : Prop :=
  machine.state = .accepting →
    machine.outstanding ≠ [] ∨
      RaisesRequest machine.tasks ∧
        (machine.data.hasReadRequestReceived = true ∨
          machine.data.hasWriteRequestReceived = true)

/-- In `Accepting` with the listener not armed and no request a row would
accept. -/
structure Machine.Deaf (machine : Machine) : Prop where
  accepts : machine.state = .accepting
  nothing : machine.outstanding = []
  noRead : machine.data.hasReadRequestReceived = false
  noWrite : machine.data.hasWriteRequestReceived = false

section Preservation

variable {config : Config} {machine next : Machine}

private theorem complete_accepting {completion : Completion}
    (wellFormed : machine.WellFormed config)
    (accepts : machine.state = .accepting) (idle : machine.tasks = [])
    (started : completion.operation ∈ machine.outstanding) :
    completion.operation = .listenerReceive ∧
      machine.outstanding = [.listenerReceive] ∧
        machine.data.Rested config := by
  have rested := wellFormed.rested
    (.inr ⟨accepts, List.ne_nil_of_mem started⟩)
  have shape := wellFormed.shape
  rw [accepts, idle] at shape
  generalize machine.outstanding = outstanding at shape started
  cases shape with
  | waiting drives =>
      simp only [State.operation, Option.some.injEq] at drives
      subst drives
      exact ⟨by simpa using started, rfl, rested⟩
  | _ => simp at started

theorem receivedOpCd_accepted {data : SessionData}
    (rested : data.Rested config) (sender : Endpoint) (datagram : Datagram) :
    (Completion.start data (.accepted sender datagram)).1.receivedOpCd =
      Packet.opCode datagram.bytes := by
  rw [SessionData.Rested] at rested
  rw [rested]
  rfl

private theorem listening_complete {completion : Completion}
    (wellFormed : machine.WellFormed config)
    (idle : machine.tasks = [])
    (started : completion.operation ∈ machine.outstanding)
    (serves : Step.ServesListener
      ⟨machine, .complete completion, [], machine⟩) :
    Machine.Listening
      { machine with
        data := (completion.start machine.data).1
        tasks := (completion.start machine.data).2.1
        outstanding :=
          machine.outstanding.erase completion.operation } := by
  intro accepts
  obtain ⟨drives, _, rested⟩ :=
    complete_accepting wellFormed accepts idle started
  right
  cases completion with
  | accepted sender datagram =>
      constructor
      · simp only [Completion.start]
        split <;> trivial
      · simpa [SessionData.hasReadRequestReceived,
          SessionData.hasWriteRequestReceived,
          receivedOpCd_accepted rested sender datagram,
          Step.ServesListener] using serves
  | acceptFailed => exact serves.elim
  | _ => simp [Completion.operation] at drives

theorem Machine.Listening.step (listening : machine.Listening)
    (wellFormed : machine.WellFormed config)
    (live : config.listenerSocket = true) {input : Input}
    {effects : List Effect}
    (stepped : machine.step input = some (next, effects))
    (serves : Step.ServesListener ⟨machine, input, effects, next⟩) :
    next.Listening := by
  cases stepCases stepped with
  | complete settled idle started =>
      exact listening_complete wellFormed idle started serves
  | parse settled running =>
      intro accepts
      rcases listening accepts with armed | ⟨raises, opcode⟩
      · exact .inl armed
      · right
        refine ⟨?_, opcode⟩
        have shape := wellFormed.shape
        rw [running] at shape
        generalize machine.state = state at shape
        generalize machine.outstanding = outstanding at shape
        cases shape
        trivial
  | @fire row environment event tasks exitEffects settled running firing
      exits acted entered acts enters effects allEffects =>
      intro accepts
      have live : acted.1.listenerSocket = true := by
        have kept : acted.1.config = config := by
          rw [acts, run_config, wellFormed.configured]
        have := congrArg Config.listenerSocket kept
        exact this.trans live
      have accepts : row.target = .accepting := accepts
      have operations : entered.2.filterMap Effect.operation =
          [Operation.listenerReceive] := by
        rw [enters, accepts, entry_operations, live]
        rfl
      left
      simp [allEffects, operations]
  | @reject event tasks settled running refused =>
      intro accepts
      have accepts : machine.state = .accepting := accepts
      have clean := (wellFormed.pristine accepts).hasError
      rcases listening accepts with armed | ⟨raises, opcode⟩
      · exact .inl armed
      · have shape := wellFormed.shape
        rw [accepts, running] at shape
        rw [running] at raises
        generalize machine.outstanding = outstanding at shape
        cases shape with
        | acceptFailed => exact raises.elim
        | malformed => exact .inr ⟨trivial, opcode⟩
        | requested =>
            rw [accepts] at refused
            rcases opcode with read | write
            · exact absurd (.acceptRead clean read) (refused _ _)
            · exact absurd (.acceptWrite clean write) (refused _ _)
        | _ => simp_all [State.operation]

/-- A listener handler that does not serve the listener leaves it deaf. -/
private theorem deaf_complete {completion : Completion}
    (wellFormed : machine.WellFormed config)
    (idle : machine.tasks = [])
    (started : completion.operation ∈ machine.outstanding)
    (fails : ¬ Step.ServesListener
      ⟨machine, .complete completion, [], machine⟩) :
    Machine.Deaf
      { machine with
        data := (completion.start machine.data).1
        tasks := (completion.start machine.data).2.1
        outstanding :=
          machine.outstanding.erase completion.operation } := by
  have accepts : machine.state = .accepting := by
    have drives : machine.state.operation = some completion.operation := by
      have shape := wellFormed.shape
      rw [idle] at shape
      generalize machine.outstanding = outstanding at shape started
      generalize machine.state = state at shape
      cases shape <;> simp_all
    cases completion with
    | sent failed => simp [Step.ServesListener] at fails
    | received sender datagram => simp [Step.ServesListener] at fails
    | receiveFailed => simp [Step.ServesListener] at fails
    | _ => cases state : machine.state <;>
        simp_all [State.operation, Completion.operation]
  obtain ⟨drives, armed, rested⟩ :=
    complete_accepting wellFormed accepts idle started
  cases completion with
  | accepted sender datagram =>
      simp only [Step.ServesListener, not_or] at fails
      refine ⟨accepts, by simp [armed, Completion.operation], ?_, ?_⟩
      · simpa [SessionData.hasReadRequestReceived,
          receivedOpCd_accepted rested sender datagram] using fails.1
      · simpa [SessionData.hasWriteRequestReceived,
          receivedOpCd_accepted rested sender datagram] using fails.2
  | acceptFailed =>
      have cleared : (Completion.start machine.data
          .acceptFailed).1.receivedOpCd = ⟨0⟩ := by
        have buffer : machine.data.receiveBuffer = fill 0 := by
          rw [SessionData.Rested] at rested
          rw [rested]
          rfl
        simp [Completion.start, SessionData.receivedOpCd, HeaderView.opCd,
          getWord, fill, buffer]
      refine ⟨accepts, by simp [armed, Completion.operation], ?_, ?_⟩
      · rw [SessionData.hasReadRequestReceived, cleared]
        rfl
      · rw [SessionData.hasWriteRequestReceived, cleared]
        rfl
  | _ => simp [Completion.operation] at drives

/-- Only the listener's handler can leave the listener unserved. -/
theorem Machine.WellFormed.deaf_of_not_serves
    (wellFormed : machine.WellFormed config) {input : Input}
    {effects : List Effect}
    (stepped : machine.step input = some (next, effects))
    (fails : ¬ Step.ServesListener ⟨machine, input, effects, next⟩) :
    next.Deaf := by
  cases stepCases stepped with
  | complete settled idle started =>
      exact deaf_complete wellFormed idle started fails
  | _ => exact absurd trivial fails

theorem Machine.Deaf.step (deaf : machine.Deaf)
    (wellFormed : machine.WellFormed config) {input : Input}
    {effects : List Effect}
    (stepped : machine.step input = some (next, effects)) :
    next.Deaf := by
  cases stepCases stepped with
  | complete settled idle started => simp [deaf.nothing] at started
  | parse settled running => exact { deaf with }
  | @fire row environment event tasks exitEffects settled running firing =>
      have clean := (wellFormed.pristine deaf.accepts).hasError
      rw [deaf.accepts] at firing
      generalize row.action = action, row.target = target,
        event.map Event.kind = kind at firing
      cases firing with
      | acceptingFailed error => simp [clean] at error
      | acceptWrite _ opcode => simp [deaf.noWrite] at opcode
      | acceptRead _ opcode => simp [deaf.noRead] at opcode
  | reject settled running refused => exact { deaf with }

theorem driven_of_listening (wellFormed : machine.WellFormed config)
    (listening : machine.Listening) (returned : machine.returned = true) :
    machine.Driven := by
  obtain ⟨waits, idle⟩ := returned_iff.mp returned
  have shape := wellFormed.shape
  obtain ⟨state, data, outstanding, tasks⟩ := machine
  simp only at *
  subst idle
  cases shape with
  | waiting drives => exact ⟨_, drives, by simp⟩
  | stuck =>
      rcases listening rfl with armed | ⟨raises, _⟩
      · simp at armed
      · exact raises.elim
  | passing passes => exact absurd passes waits

end Preservation

/-- Whenever all handlers have returned, the operation that drives the state
is outstanding, unless a receive of the listener failed or a datagram with
another opcode than RRQ and WRQ was accepted. -/
theorem driven_iff_servesListener {config : Config}
    (live : config.listenerSocket = true) {history : List Step}
    {machine : Machine} (run : Reaches config history machine)
    (returned : machine.returned = true) :
    machine.Driven ↔ ∀ step ∈ history, step.ServesListener := by
  have invariant : (∀ step ∈ history, step.ServesListener) ∧
      machine.Listening ∨
        (∃ step ∈ history, ¬ step.ServesListener) ∧ machine.Deaf := by
    apply run.history_induction fun history machine =>
      (∀ step ∈ history, Step.ServesListener step) ∧ machine.Listening ∨
        (∃ step ∈ history, ¬ Step.ServesListener step) ∧ machine.Deaf
    · left
      refine ⟨by simp, ?_⟩
      intro _
      left
      simp [Machine.started, State.entry, enterAccepting, SessionData.fresh,
        live, Effect.operation]
    · rintro past before input effects after
        (⟨served, listening⟩ | ⟨⟨lost, member, fails⟩, deaf⟩) wellFormed
        stepped
      · by_cases serves :
          Step.ServesListener ⟨before, input, effects, after⟩
        · left
          refine ⟨?_, listening.step wellFormed live stepped serves⟩
          simpa [or_imp, forall_and] using ⟨served, serves⟩
        · right
          exact ⟨⟨_, by simp, serves⟩,
            wellFormed.deaf_of_not_serves stepped serves⟩
      · right
        exact ⟨⟨lost, by simp [member], fails⟩,
          deaf.step wellFormed stepped⟩
  rcases invariant with ⟨served, listening⟩ | ⟨⟨lost, member, fails⟩, deaf⟩
  · exact ⟨fun _ => served, fun _ =>
      driven_of_listening run.wellFormed listening returned⟩
  · refine ⟨?_, fun served => absurd (served lost member) fails⟩
    rintro ⟨operation, _, started⟩
    simp [deaf.nothing] at started

/-- A read request with an unknown mode is refused, and the session listens
again once the error is sent. -/
theorem driven_after_refusal :
    ∃ history machine,
      (Machine.started .loopback).converse
          [(.accepted .client ⟨[0, 1, 102, 0, 120, 0], by decide⟩, {}),
            (.sent false, {})] = some (history, machine) ∧
        machine.state = .accepting ∧ machine.Driven := by
  obtain ⟨history, machine, conversed, run, passes⟩ :=
    exists_reaches_of_converse .loopback
      [(.accepted .client ⟨[0, 1, 102, 0, 120, 0], by decide⟩, {}),
        (.sent false, {})]
      (fun history machine => decide (machine.state = .accepting) &&
        machine.returned && decide (∀ step ∈ history, step.ServesListener))
      (by decide +kernel)
  simp only [Bool.and_eq_true, decide_eq_true_eq] at passes
  obtain ⟨⟨accepts, returned⟩, served⟩ := passes
  exact ⟨history, machine, conversed, accepts,
    (driven_iff_servesListener rfl run returned).mpr served⟩

/-- A session on which nothing is outstanding never takes a step again. -/
theorem step_eq_none_of_stuck {machine : Machine}
    (returned : machine.returned = true)
    (stuck : machine.outstanding = []) (input : Input) :
    machine.step input = none := by
  obtain ⟨waits, idle⟩ := returned_iff.mp returned
  cases taken : machine.step input with
  | none => rfl
  | some result =>
      obtain ⟨next, effects⟩ := result
      cases stepCases taken with
      | complete settled idle started => simp [stuck] at started
      | parse settled running => simp [idle] at running
      | @fire row environment event tasks _ settled running firing =>
          cases event with
          | none => exact absurd firing.operation_eq_none waits
          | some event => simp [idle] at running
      | reject settled running => simp [idle] at running

/-- A first completion that ends the session: its handler has returned,
nothing that could drive the session is outstanding, and it takes no further
step. -/
def LostAfter (completion : Completion) : Prop :=
  ∃ history machine,
    (Machine.started .loopback).converse [(completion, {})] =
        some (history, machine) ∧
      Reaches .loopback history machine ∧
        machine.returned = true ∧ ¬ machine.Driven ∧
          ∀ input, machine.step input = none

private theorem lost_of_converse {completion : Completion}
    (checked : ((Machine.started .loopback).converse [(completion, {})]).map
      (fun result => result.2.returned && result.2.outstanding.isEmpty) =
        some true) :
    LostAfter completion := by
  obtain ⟨history, machine, conversed, run, passes⟩ :=
    exists_reaches_of_converse .loopback [(completion, {})]
      (fun _ machine => machine.returned && machine.outstanding.isEmpty)
      checked
  simp only [Bool.and_eq_true, List.isEmpty_iff] at passes
  refine ⟨history, machine, conversed, run, passes.1, ?_,
    step_eq_none_of_stuck passes.1 passes.2⟩
  rintro ⟨operation, _, started⟩
  simp [passes.2] at started

/-- The three ways to lose a session with its first completion: a receive of
the listener that fails, a request with the opcode of an ACK, and a malformed
one, whose last byte is not NUL. -/
theorem session_lost :
    LostAfter .acceptFailed ∧
      LostAfter (.accepted .client ⟨[0, 4, 102, 0], by decide⟩) ∧
        LostAfter (.accepted .client ⟨[0, 4, 102, 102], by decide⟩) :=
  ⟨lost_of_converse (by decide +kernel), lost_of_converse (by decide +kernel),
    lost_of_converse (by decide +kernel)⟩

end MsmTftp
