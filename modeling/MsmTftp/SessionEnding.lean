import MsmTftp.SessionFiles
import MsmTftp.SessionReports

/-!
# An ERROR ends a transfer

Whoever is served, an ERROR packet is sent on the way to `SendingError` and
nowhere else, and `Reset` is the only row that leads on from there.
-/

namespace MsmTftp

open CellBuffer TransitionSystem

/-- The handler of a send starts, and has no effect yet. -/
def Step.HearsSent (step : Step) : Prop :=
  (∃ failed, step.input = .complete (.sent failed)) ∧ step.outputs = []

/-- An ERROR was sent before the history. -/
structure ErrorSent (history : List Step) (machine : Machine) : Prop where
  errs : machine.state = .sendingError
  hears : history = [] ∧ machine.tasks = [] ∨
    ∃ last, history = [last] ∧ last.HearsSent ∧ machine.tasks ≠ []

section Roles

variable {data : SessionData} {state : State}

theorem ReadRole.opCode_ne_error (role : ReadRole data state)
    (sends : state.operation = some .send) (other : state ≠ .sendingError) :
    Packet.opCode data.outgoing ≠ .error := by
  cases state with
  | sendingData =>
      rcases role with ⟨_, oack⟩ | ⟨_, payload, block⟩
      · rw [oack]
        decide
      · rw [block, Packet.opCode_dataPacket]
        decide
  | sendingError => exact absurd rfl other
  | sendingAck => exact role.elim
  | _ => simp [State.operation] at sends

end Roles

section Transfers

variable {config : Config} {action : Action} {past before after : List Step}
  {accept step : Step} {machine next : Machine} {input : Input}
  {effects : List Effect} {packet : Bytes} {receiver : Endpoint}

/-- Only a row sends, and it ends the handler. -/
theorem BusyCases.tasks_of_sends (cases : BusyCases machine input effects next)
    (sent : (packet, receiver) ∈ effects.filterMap Effect.packet) :
    next.tasks = [] := by
  cases cases with
  | @complete completion idle uses drives =>
      cases completion <;> simp [Completion.start, Effect.packet] at sent
  | fire cases ongoing busy data_eq => exact cases.tasks_eq

theorem Serving.errs_of_error
    (serving : Serving config action past accept (before ++ step :: after)
      machine)
    (serves : action = .initServeReadRequest ∨
      action = .initServeWriteRequest)
    (sent : .sendTo packet receiver ∈ step.outputs)
    (error : Packet.opCode packet = .error) :
    step.after.state = .sendingError := by
  obtain ⟨earlier, admitted⟩ := serving.before
  have stepped : Serving config action past accept (before ++ [step])
      step.after :=
    earlier.extend (System.run_cons.mpr ⟨rfl, admitted, rfl⟩) fun other member =>
      serving.ongoing other (by simp [List.mem_singleton.mp member])
  obtain ⟨sends, rfl⟩ := (serving.busyCases serves).2.packets
    (mem_filterMap_packet.mpr sent)
  by_contra other
  rcases serves with rfl | rfl
  · exact stepped.readRole.1.opCode_ne_error sends other error
  · exact stepped.uploadRole.opCode_ne sends other error

/-- A step other than `Reset` behind an ERROR starts the handler of its
send. -/
theorem ErrorSent.keep {history : List Step}
    (sent : ErrorSent history machine)
    (cases : BusyCases machine input effects next) :
    ErrorSent (history ++ [⟨machine, input, effects, next⟩]) next := by
  obtain ⟨errs, hears⟩ := sent
  refine ⟨cases.stays_sendingError errs, .inr ?_⟩
  cases cases with
  | @complete completion idle uses drives =>
      rcases hears with ⟨rfl, _⟩ | ⟨_, _, _, running⟩
      · rw [errs] at drives
        cases completion <;>
          simp [State.operation, Completion.operation] at drives
        exact ⟨_, rfl, ⟨⟨_, rfl⟩, rfl⟩, by simp [Completion.start]⟩
      · exact absurd idle running
  | fire cases ongoing busy data_eq =>
      have firing := cases.firing
      rw [errs] at firing
      exact absurd firing.of_sendingError.1 ongoing

/-- After an ERROR the session only hears that it was sent. -/
theorem Serving.silent_after_error
    (serving : Serving config action past accept (before ++ step :: after)
      machine)
    (serves : action = .initServeReadRequest ∨
      action = .initServeWriteRequest)
    (sent : .sendTo packet receiver ∈ step.outputs)
    (error : Packet.opCode packet = .error) :
    machine.state = .sendingError ∧ after.length ≤ 1 ∧
      ∀ later ∈ after, later.HearsSent := by
  obtain ⟨earlier, admitted⟩ := serving.before
  obtain ⟨_, _, continues⟩ := System.run_split.mp serving.split.2.2
  obtain ⟨busy, cases⟩ := serving.busyCases serves
  have wellFormed : step.before.WellFormed config := earlier.run.wellFormed
  obtain ⟨errs, hears⟩ : ErrorSent after machine := by
    apply (busy_invariant continues (wellFormed.step admitted)
      (cases.busy busy) _ (fun _ => True) (fun _ _ => trivial) ErrorSent
      _ _).2
    · exact fun other member => serving.ongoing other (by simp [member])
    · exact ⟨serving.errs_of_error serves sent error,
        .inl ⟨rfl, cases.tasks_of_sends (mem_filterMap_packet.mpr sent)⟩⟩
    · exact fun _ _ _ _ _ _ _ sent cases _ => sent.keep cases
  refine ⟨errs, ?_⟩
  rcases hears with ⟨rfl, _⟩ | ⟨last, rfl, hears, _⟩
  · simp
  · simpa using hears

end Transfers

/-- An ERROR is the only one of its transfer and the last packet of it: in
every run, between an ERROR and the next `Reset` the session only hears that
the ERROR was sent. -/
theorem error_ends_transfer (config : Config) (history : List Step)
    (step : Step) (after : List Step) (machine : Machine)
    (run : Reaches config (history ++ step :: after) machine)
    (ongoing : ∀ later ∈ after, ¬ Step.Fires later .reset)
    (packet : Bytes) (receiver : Endpoint)
    (sent : .sendTo packet receiver ∈ step.outputs)
    (error : Packet.opCode packet = .error) :
    machine.state = .sendingError ∧ after.length ≤ 1 ∧
      (∀ later ∈ after, Step.HearsSent later) ∧
      ∃ action past accept rest, history = past ++ accept :: rest ∧
        TransferFrom config receiver action past accept rest step.before ∧
        ∀ earlier ∈ rest, ∀ other target,
          .sendTo other target ∈ earlier.outputs →
            Packet.opCode other ≠ .error := by
  obtain ⟨earlier, admitted, continues⟩ := System.run_split.mp run
  have wellFormed : step.before.WellFormed config := Reaches.wellFormed earlier
  obtain ⟨busy, _, unfinished, _, addressed⟩ := busy_of_sends wellFormed
    admitted (mem_filterMap_packet.mpr sent)
  obtain ⟨_, action, past, accept, rest, rfl, transfer⟩ :=
    Reaches.transfer_of_busy
      (System.run_concat.mpr ⟨earlier, admitted, rfl⟩) busy
  have cases := wellFormed.busyCases busy admitted unfinished
  rw [cases.agreedRemoteEndpoint] at addressed
  have serving : Serving config action past accept (rest ++ step :: after)
      machine :=
    transfer.serving.extend
      (System.run_cons.mpr ⟨rfl, admitted, continues⟩)
      (List.forall_mem_cons.mpr ⟨unfinished, ongoing⟩)
  obtain ⟨errs, short, silent⟩ :=
    serving.silent_after_error transfer.serves sent error
  refine ⟨errs, short, silent, action, past, accept, rest, rfl,
    addressed ▸ transfer, ?_⟩
  intro first member other target sends reports
  obtain ⟨before, between, rfl⟩ := List.append_of_mem member
  rw [List.append_assoc, List.cons_append] at serving
  obtain ⟨_, _, quiet⟩ :=
    serving.silent_after_error transfer.serves sends reports
  rw [(quiet step (by simp)).2] at sent
  cases sent

section Examples

/-- The ERROR for a packet that is no ACK ends a download. -/
theorem protocol_error_ends_download :
    ∃ history, ∃ step : Step, ∃ after machine packet,
      Reaches .loopback (history ++ step :: after) machine ∧
      .sendTo packet .client ∈ step.outputs ∧
      Packet.opCode packet = .error ∧ after ≠ [] ∧
      machine.state = .sendingError ∧ after.length ≤ 1 ∧
        (∀ later ∈ after, Step.HearsSent later) ∧
        ∃ action past accept rest, history = past ++ accept :: rest ∧
          TransferFrom .loopback .client action past accept rest
            step.before ∧
          ∀ earlier ∈ rest, ∀ other target,
            .sendTo other target ∈ earlier.outputs →
              Packet.opCode other ≠ .error := by
  obtain ⟨past, later, run, admitted, passes⟩ :=
    exists_step_of_converse .loopback
      [(.accepted .client (requestOf .readRequest), {}), (.sent false, {}),
        (.received .client (ackOf 5), {}), (.sent false, {})]
      (fun past later => !later.fires .reset &&
        past.getLast?.any fun step =>
          (step.outputs.filterMap Effect.packet).any fun sent =>
            sent.2 == .client && Packet.opCode sent.1 == .error)
      (by decide +kernel)
  simp only [Bool.and_eq_true, Bool.not_eq_true', Option.any_eq_true,
    List.any_eq_true, beq_iff_eq] at passes
  obtain ⟨unfinished, step, last, ⟨packet, receiver⟩, found, rfl, error⟩ :=
    passes
  obtain ⟨history, rfl⟩ := List.getLast?_eq_some_iff.mp last
  have sent : .sendTo packet .client ∈ step.outputs :=
    mem_filterMap_packet.mp found
  have continues : Reaches .loopback (history ++ step :: [later])
      later.after := by
    rw [List.append_cons]
    exact System.run_concat.mpr ⟨run, admitted, rfl⟩
  have ongoing : ∀ other ∈ [later], ¬ Step.Fires other .reset := by
    intro other member resets
    rw [List.mem_singleton.mp member, Step.fires_iff, unfinished] at resets
    cases resets
  exact ⟨history, step, [later], later.after, packet, continues, sent, error,
    List.cons_ne_nil _ _, error_ends_transfer .loopback history step [later]
      later.after continues ongoing packet .client sent error⟩

end Examples

end MsmTftp
