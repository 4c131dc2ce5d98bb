import MsmTftp.SessionOrigin
import MsmTftp.SessionReactor

/-!
# Cancelling the data socket

`socket_.cancel()` throws when the socket is not open.  The socket is opened
with a request, which may fail and is only logged then, and `Reset` closes it.
So the exit actions throw in a transfer whose socket was not opened, and a
wait handler throws that was queued before a `Reset` and runs while the
session accepts requests again.
-/

namespace MsmTftp

open CellBuffer CompletionQueue TransitionSystem

/-- A request action of the step opens the data socket. -/
def Step.OpensSocket (step : Step) : Prop :=
  ∀ row environment, step.input = .fire row environment →
    row.action = .initServeReadRequest ∨
        row.action = .initServeWriteRequest →
      environment.opensSocket = true

/-- The row would be fired, whatever its exit action does. -/
def Machine.Selects (machine : Machine) (row : Row) : Prop :=
  match row.event, machine.tasks with
  | none, _ => row ∈ enabledRows machine.state none machine.data
  | some kind, .process event :: _ =>
      machine.settled = true ∧ event.kind = kind ∧
        row ∈ enabledRows machine.state (some kind) machine.data
  | _, _ => False

/-- What calls `socket_.cancel()`: the wait handler of an expired timer, and
the exit action of a state with an operation on the data socket. -/
inductive CallsCancel (reactor : Reactor) : Occurrence → Prop
  | wake {serial : Nat} (idle : reactor.machine.returned = true)
      (expired : (lookup serial reactor.waits).bind Flight.result =
        some .expired) :
      CallsCancel reactor (.wake serial)
  | exit {row : Row} {environment : Environment}
      (selects : reactor.machine.Selects row)
      (uses : reactor.machine.state.operation = some .send ∨
        reactor.machine.state.operation = some .receive) :
      CallsCancel reactor (.proceed (.fire row environment))

/-- How the data socket stands to the transfers of a run. -/
structure SocketTracks (history : List Step) (machine : Machine) : Prop where
  busy : machine.state.busy = true →
    (machine.data.socketOpen = true ↔ ∀ step ∈ history, step.OpensSocket)
  idle : machine.state.busy = false →
    machine.data.socketOpen = false ∧ ∀ step ∈ history, step.OpensSocket

section Tracking

variable {config : Config} {machine next : Machine} {input : Input}
  {effects : List Effect} {history : List Step} {data : SessionData}

theorem run_socketOpen_of_serves (environment : Environment)
    (request : RequestReceived) (data : SessionData) {action : Action}
    (serves : action = .initServeReadRequest ∨
      action = .initServeWriteRequest) :
    (action.run environment (some (.requestReceived request))
        data).1.socketOpen = (data.socketOpen || environment.opensSocket) := by
  rcases serves with rfl | rfl
  · obtain ⟨_, _, _, _, _, _, _, _, frame⟩ :=
      initServeReadRequest_frame environment data request
    simp only [Action.run, frame]
  · obtain ⟨_, _, frame⟩ :=
      initServeWriteRequest_frame environment data request
    simp only [Action.run, frame]

theorem opensSocket_concat {step : Step}
    (other : ∀ row environment, step.input = .fire row environment →
      row.action ≠ .initServeReadRequest ∧
        row.action ≠ .initServeWriteRequest) :
    (∀ earlier ∈ history ++ [step], Step.OpensSocket earlier) ↔
      ∀ earlier ∈ history, earlier.OpensSocket := by
  have here : step.OpensSocket := by
    intro row environment taken serves
    obtain ⟨reads, writes⟩ := other row environment taken
    rcases serves with read | write
    · exact absurd read reads
    · exact absurd write writes
  constructor
  · intro all earlier member
    exact all earlier (List.mem_append_left _ member)
  · intro all earlier member
    rcases List.mem_append.mp member with before | last
    · exact all earlier before
    · rw [List.mem_singleton.mp last]
      exact here

/-- A transfer is reset from a state with an operation on the data socket. -/
theorem Firing.operation_of_reset {source target : State}
    {kind : Option EventKind} (firing : Firing data source kind .reset target)
    (busy : source.busy = true) :
    source.operation = some .send ∨ source.operation = some .receive := by
  cases firing <;> simp_all [State.busy, State.operation]

/-- Outside a transfer a row opens the socket, resets, or goes on to
accept. -/
theorem Firing.of_not_busy {source target : State} {kind : Option EventKind}
    {action : Action} (firing : Firing data source kind action target)
    (rests : source.busy = false) :
    action = .reset ∨ target = .accepting ∨
      (action = .initServeReadRequest ∨ action = .initServeWriteRequest) := by
  cases firing <;> simp_all [State.busy]

theorem entering_socketOpen (state : State) :
    (Machine.entering state data).data.socketOpen = data.socketOpen := by
  simp only [Machine.entering, entry_data]
  split <;> rfl

section Fire

variable {row : Row} {environment : Environment} {event : Option Event}
  {exitEffects : List Effect}

theorem FireCases.socketOpen
    (cases : FireCases machine row environment event exitEffects effects
      next) :
    next.data.socketOpen =
      (row.action.run environment event machine.data).1.socketOpen := by
  rw [cases.next_eq]
  exact entering_socketOpen row.target

theorem opensSocket_fire (reads : row.action ≠ .initServeReadRequest)
    (writes : row.action ≠ .initServeWriteRequest) :
    (∀ earlier ∈ history ++
        [⟨machine, .fire row environment, effects, next⟩],
          Step.OpensSocket earlier) ↔
      ∀ earlier ∈ history, earlier.OpensSocket := by
  apply opensSocket_concat
  intro other answers taken
  simp only [Input.fire.injEq] at taken
  rw [← taken.1]
  exact ⟨reads, writes⟩

theorem SocketTracks.fire_serve (tracks : SocketTracks history machine)
    (cases : FireCases machine row environment event exitEffects effects
      next)
    (serves : row.action = .initServeReadRequest ∨
      row.action = .initServeWriteRequest) :
    SocketTracks
      (history ++ [⟨machine, .fire row environment, effects, next⟩]) next := by
  have socket := cases.socketOpen
  obtain ⟨accepts, kind, target⟩ := cases.firing.of_initServe serves
  obtain ⟨request, rfl⟩ := Event.eq_requestReceived kind
  obtain ⟨closed, opened⟩ := tracks.idle (by rw [accepts]; rfl)
  rw [run_socketOpen_of_serves environment request machine.data serves,
    closed, Bool.false_or] at socket
  have busy : next.state.busy = true := by
    rw [cases.state_eq, target]
    split <;> rfl
  constructor
  · intro _
    rw [socket]
    constructor
    · intro isOpen step member
      rcases List.mem_append.mp member with earlier | last
      · exact opened step earlier
      · rw [List.mem_singleton.mp last]
        rintro other answers taken _
        simp only [Input.fire.injEq] at taken
        rw [← taken.2]
        exact isOpen
    · intro all
      exact all ⟨machine, .fire row environment, effects, next⟩ (by simp)
        row environment rfl serves
  · intro rests
    simp [busy] at rests

theorem SocketTracks.fire_reset (tracks : SocketTracks history machine)
    (cases : FireCases machine row environment event exitEffects effects
      next)
    (resets : row.action = .reset) :
    SocketTracks
      (history ++ [⟨machine, .fire row environment, effects, next⟩]) next := by
  have firing := cases.firing
  rw [resets] at firing
  have closed : next.data.socketOpen = false := by
    rw [cases.socketOpen, resets]
    rfl
  have rests : next.state.busy = false := by
    rw [cases.state_eq, firing.target_of_reset]
    rfl
  have opened : ∀ step ∈ history, step.OpensSocket := by
    cases busy : machine.state.busy with
    | false => exact (tracks.idle busy).2
    | true =>
        apply (tracks.busy busy).mp
        exact exit_socketOpen cases.exits (firing.operation_of_reset busy)
  constructor
  · intro busy
    simp [rests] at busy
  · intro _
    refine ⟨closed, (opensSocket_fire ?_ ?_).mpr opened⟩
    · simp [resets]
    · simp [resets]

theorem SocketTracks.fire_other (tracks : SocketTracks history machine)
    (cases : FireCases machine row environment event exitEffects effects
      next)
    (resets : row.action ≠ .reset)
    (serves : ¬ (row.action = .initServeReadRequest ∨
      row.action = .initServeWriteRequest)) :
    SocketTracks
      (history ++ [⟨machine, .fire row environment, effects, next⟩]) next := by
  obtain ⟨reads, writes⟩ := not_or.mp serves
  have firing := cases.firing
  have socket := cases.socketOpen
  rw [(run_keepsTransfer _ _ _ resets reads writes).socketOpen] at socket
  cases busy : machine.state.busy with
  | true =>
      have stays : next.state.busy = true := by
        rw [cases.state_eq]
        exact firing.busy resets busy
      constructor
      · intro _
        rw [socket, opensSocket_fire reads writes]
        exact tracks.busy busy
      · intro rests
        simp [stays] at rests
  | false =>
      have rests : next.state.busy = false := by
        rw [cases.state_eq]
        rcases firing.of_not_busy busy with reset | target | serving
        · exact absurd reset resets
        · rw [target]
          rfl
        · exact absurd serving serves
      constructor
      · intro works
        simp [rests] at works
      · intro _
        rw [socket, opensSocket_fire reads writes]
        exact tracks.idle busy

theorem SocketTracks.fire (tracks : SocketTracks history machine)
    (cases : FireCases machine row environment event exitEffects effects
      next) :
    SocketTracks
      (history ++ [⟨machine, .fire row environment, effects, next⟩]) next := by
  by_cases serves : row.action = .initServeReadRequest ∨
      row.action = .initServeWriteRequest
  · exact tracks.fire_serve cases serves
  · by_cases resets : row.action = .reset
    · exact tracks.fire_reset cases resets
    · exact tracks.fire_other cases resets serves

end Fire

theorem SocketTracks.stay (tracks : SocketTracks history machine)
    (state : next.state = machine.state)
    (socket : next.data.socketOpen = machine.data.socketOpen)
    (fires : ∀ row environment, input ≠ .fire row environment) :
    SocketTracks (history ++ [⟨machine, input, effects, next⟩]) next := by
  have same : (∀ earlier ∈ history ++ [⟨machine, input, effects, next⟩],
        Step.OpensSocket earlier) ↔
      ∀ earlier ∈ history, earlier.OpensSocket := by
    apply opensSocket_concat
    intro row environment taken
    exact absurd taken (fires row environment)
  constructor
  · rw [state, socket, same]
    exact tracks.busy
  · rw [state, socket, same]
    exact tracks.idle

theorem SocketTracks.step (tracks : SocketTracks history machine)
    (wellFormed : machine.WellFormed config)
    (stepped : machine.step input = some (next, effects)) :
    SocketTracks (history ++ [⟨machine, input, effects, next⟩]) next := by
  cases input with
  | fire row environment =>
      obtain ⟨event, exitEffects, cases⟩ := wellFormed.fireCases stepped
      exact tracks.fire cases
  | complete completion =>
      cases stepCases stepped with
      | complete =>
          exact tracks.stay rfl (by cases completion <;> rfl) (by simp)
  | parse =>
      cases stepCases stepped with
      | parse => exact tracks.stay rfl rfl (by simp)
  | reject =>
      cases stepCases stepped with
      | reject => exact tracks.stay rfl rfl (by simp)

theorem Reaches.socketTracks (run : Reaches config history machine) :
    SocketTracks history machine := by
  apply run.history_induction SocketTracks
  · constructor
    · simp [Machine.started, State.busy]
    · intro _
      exact ⟨rfl, by simp⟩
  · intro past before input effects after tracks wellFormed stepped
    exact tracks.step wellFormed stepped

theorem cancelOperations_isSome (data : SessionData) :
    (cancelOperations data).isSome = data.socketOpen := by
  unfold cancelOperations
  cases data.socketOpen <;> rfl

/-- A row that would be fired is fired unless its exit action throws. -/
theorem Machine.Selects.step_isSome {row : Row}
    (selects : machine.Selects row) (environment : Environment) :
    (machine.step (.fire row environment)).isSome =
      (machine.state.exit machine.data).isSome := by
  have fired (event : Option Event) (tasks : List Task)
      (source : row.source = machine.state) :
      (machine.fire row environment event tasks).isSome =
        (machine.state.exit machine.data).isSome := by
    simp [Machine.fire, Row.fire, source]
  unfold Machine.Selects at selects
  split at selects
  · rename_i event
    have source := (mem_enabledRows.mp selects).2.1
    simp only [Machine.step, event, if_pos selects]
    exact fired none _ source
  · rename_i event running
    have source := (mem_enabledRows.mp selects.2.2).2.1
    simp only [Machine.step, event, running, if_pos selects]
    exact fired _ _ source
  · exact selects.elim

/-- A call of `socket_.cancel()` throws exactly when the socket is closed. -/
theorem CallsCancel.step_isSome {reactor : Reactor} {occurrence : Occurrence}
    (calls : CallsCancel reactor occurrence) :
    (reactor.step occurrence).isSome = reactor.machine.data.socketOpen := by
  cases calls with
  | wake idle expired =>
      simp only [Reactor.step, if_pos idle, expired]
      split
      · rename_i isOpen
        simp [isOpen]
      · rename_i closed
        simp [closed]
  | @exit row environment selects uses =>
      have exits : (reactor.machine.state.exit reactor.machine.data).isSome =
          reactor.machine.data.socketOpen := by
        cases state : reactor.machine.state <;>
          simp_all [State.operation, State.exit, cancelOperations_isSome]
      rw [← exits, ← selects.step_isSome environment]
      simp [Reactor.step]

theorem CallsCancel.busy {reactor : Reactor} {occurrence : Occurrence}
    (calls : CallsCancel reactor occurrence)
    (other : reactor.machine.state ≠ .accepting) :
    reactor.machine.state.busy = true := by
  cases calls with
  | wake idle expired =>
      have waits := (returned_iff.mp idle).1
      cases state : reactor.machine.state <;>
        simp_all [State.operation, State.busy]
  | exit selects uses =>
      cases state : reactor.machine.state <;>
        simp_all [State.operation, State.busy]

end Tracking

/-- A call of `socket_.cancel()` finds the data socket open, and so does not
throw, if and only if it is not made by a wait handler in `Accepting` and every
request action of the run could open the socket. -/
theorem cancel_open_iff (config : Config) (history : List ReactorStep)
    (last : Reactor) (run : Reactor.Reaches config history last)
    (occurrence : Occurrence) (calls : CallsCancel last occurrence) :
    (last.machine.data.socketOpen = true ↔
      last.machine.state ≠ .accepting ∧
        ∀ step ∈ sessionSteps history, step.OpensSocket) ∧
    ((last.step occurrence).isSome = true ↔
      last.machine.data.socketOpen = true) := by
  have tracks := run.session.socketTracks
  refine ⟨?_, by rw [calls.step_isSome]⟩
  by_cases accepts : last.machine.state = .accepting
  · have closed := (tracks.idle (by rw [accepts]; rfl)).1
    simp [closed, accepts]
  · rw [tracks.busy (calls.busy accepts)]
    simp [accepts]

section Examples

/-- A wait handler is queued with success and no other handler runs. -/
def Reactor.wakes (reactor : Reactor) (serial : Nat) : Bool :=
  reactor.machine.returned &&
    decide ((lookup serial reactor.waits).bind Flight.result = some .expired)

theorem callsCancel_of_wakes {reactor : Reactor} {serial : Nat}
    (wakes : reactor.wakes serial = true) :
    CallsCancel reactor (.wake serial) := by
  rw [Reactor.wakes, Bool.and_eq_true, decide_eq_true_iff] at wakes
  exact .wake wakes.1 wakes.2

/-- The late wait handler of a download finds the socket open. -/
theorem late_wait_open :
    ∃ history last, Reactor.Reaches .loopback history last ∧
      CallsCancel last (.wake 3) ∧ last.machine.state ≠ .accepting ∧
        ∀ step ∈ sessionSteps history, step.OpensSocket := by
  obtain ⟨history, last, run, passes⟩ := reactor.exists_run_of_execute
    (Reactor.started .loopback) 7 (Reactor.script lateWait)
    (fun _ last => last.wakes 3 && last.machine.data.socketOpen)
    (by decide +kernel)
  rw [Bool.and_eq_true] at passes
  obtain ⟨wakes, isOpen⟩ := passes
  have calls := callsCancel_of_wakes wakes
  obtain ⟨inTransfer, opened⟩ := (cancel_open_iff .loopback history last run
    (.wake 3) calls).1.mp isOpen
  exact ⟨history, last, run, calls, inTransfer, opened⟩

/-- A download whose final ACK and the expiry of the timer are queued
together; the ACK is handled first. -/
def waitBehindReset : List (Occurrence × Environment) :=
  [(.arrive 1 (.accepted .client (requestOf .readRequest)), {}),
    (.handle 1, {}), (.arrive 2 (.sent false), {}), (.handle 2, {}),
    (.arrive 3 (.received .client (ackOf 1)), {}), (.expire 3, {}),
    (.handle 3, {}), (.arrive 4 .acceptFailed, {})]

/-- A download without a data socket, up to the completion of the first
send. -/
def unopenedSocket : List (Occurrence × (Reactor → Option Occurrence)) :=
  Reactor.script
    [(.arrive 1 (.accepted .client (requestOf .readRequest)), {}),
      (.handle 1, { opensSocket := false }), (.arrive 2 (.sent false), {})] ++
    [(.handle 2, fun _ => none)]

/-- The row that leaves `SendingData`. -/
def dataSentRow : Row :=
  ⟨.sendingData, some .packetSent, .waitingForAck, .none, .always⟩

/-- A wait handler that runs behind `Reset` throws, and so does the exit
action of a state whose socket was not opened. -/
theorem cancel_throws :
    (∃ history last, Reactor.Reaches .loopback history last ∧
      last.machine.state = .accepting ∧ CallsCancel last (.wake 3) ∧
        last.machine.data.socketOpen = false ∧ last.step (.wake 3) = none) ∧
    ∃ history last, Reactor.Reaches .loopback history last ∧
      last.machine.state = .sendingData ∧
        CallsCancel last (.proceed (.fire dataSentRow {})) ∧
          last.machine.data.socketOpen = false ∧
            last.step (.proceed (.fire dataSentRow {})) = none := by
  constructor
  · obtain ⟨history, last, run, passes⟩ := reactor.exists_run_of_execute
      (Reactor.started .loopback) 7 (Reactor.script waitBehindReset)
      (fun _ last => last.wakes 3 && !last.machine.data.socketOpen &&
        decide (last.machine.state = .accepting)) (by decide +kernel)
    simp only [Bool.and_eq_true, Bool.not_eq_true', decide_eq_true_eq]
      at passes
    obtain ⟨⟨wakes, closed⟩, accepts⟩ := passes
    have calls := callsCancel_of_wakes wakes
    refine ⟨history, last, run, accepts, calls, closed, ?_⟩
    rw [← Option.isNone_iff_eq_none, ← Option.isSome_eq_false_iff,
      calls.step_isSome]
    exact closed
  · obtain ⟨⟨history, last⟩, executed, passes⟩ := Option.map_eq_some_iff.mp
      (show (reactor.execute 7 unopenedSocket
          (Reactor.started .loopback)).map
        (fun result => decide (result.2.machine.state = .sendingData) &&
          decide (result.2.machine.tasks = [.process .packetSent]) &&
            result.2.machine.settled &&
              decide (dataSentRow ∈ enabledRows .sendingData
                (some .packetSent) result.2.machine.data) &&
                !result.2.machine.data.socketOpen) = some true by
        decide +kernel)
    simp only [Bool.and_eq_true, Bool.not_eq_true', decide_eq_true_eq]
      at passes
    obtain ⟨⟨⟨⟨sending, running⟩, settled⟩, enabled⟩, closed⟩ := passes
    have selects : last.machine.Selects dataSentRow := by
      simp only [Machine.Selects, dataSentRow, running]
      rw [sending]
      exact ⟨settled, rfl, enabled⟩
    have calls : CallsCancel last (.proceed (.fire dataSentRow {})) :=
      .exit selects (by simp [sending, State.operation])
    refine ⟨history, last, System.run_of_execute executed, sending, calls,
      closed, ?_⟩
    rw [← Option.isNone_iff_eq_none, ← Option.isSome_eq_false_iff,
      calls.step_isSome]
    exact closed

end Examples

end MsmTftp
