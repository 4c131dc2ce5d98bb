import MsmTftp.CompletionQueue
import MsmTftp.SessionConversation
import MsmTftp.SessionHandler

/-!
# Sessions and the handlers they have in flight

Boost.Asio runs one handler at a time.  Between two handlers the socket
operations and the timer of a session complete in any order, and so do the
handlers that are queued then.  Cancelling reaches what is still pending only:
a wait handler that is already queued for an expired timer runs after the
session has gone on, and cancels the data socket.
-/

namespace MsmTftp

open CellBuffer CompletionQueue TransitionSystem

/-- Why a socket operation completed. -/
inductive Cause
  /-- The operating system completed it, with or without an error. -/
  | kernel
  /-- A wait handler cancelled it; the number is that of the wait. -/
  | expiry (serial : Nat)
  /-- The session itself cancelled the socket or closed it. -/
  | session
  deriving DecidableEq, Repr

/-- What a wait handler is queued with. -/
inductive Wait
  | expired
  | aborted
  deriving DecidableEq, Repr

namespace Operation

/-- The operations that cancelling the data socket reaches. -/
def usesDataSocket : Operation → Bool
  | listenerReceive => false
  | send | receive => true

/-- What a cancelled operation completes with. -/
def aborted : Operation → Completion
  | listenerReceive => .acceptFailed
  | send => .sent true
  | receive => .receiveFailed

@[simp]
theorem operation_aborted (operation : Operation) :
    operation.aborted.operation = operation := by
  cases operation <;> rfl

end Operation

/-- A session with its socket operations and the waits of its timer.  The
operations started so far number the entries of states; a wait has the number
of the receive it was armed with. -/
structure Reactor where
  machine : Machine
  flights : List (Flight Operation (Completion × Cause))
  waits : List (Flight Nat Wait)
  entries : Nat
  /-- Why the operation completed whose handler ran last. -/
  cause : Cause

namespace Reactor

def launch (reactor : Reactor) (operation : Operation) : Reactor :=
  { reactor with
    flights := start operation (reactor.entries + 1) reactor.flights
    entries := reactor.entries + 1 }

/-- `socket_.cancel()`. -/
def cancelSocket (reactor : Reactor) (cause : Cause) : Reactor :=
  { reactor with
    flights := cancel Operation.usesDataSocket
      (fun operation => (operation.aborted, cause)) reactor.flights }

/-- `timer_.cancel()`. -/
def cancelTimer (reactor : Reactor) : Reactor :=
  { reactor with
    waits := cancel (fun _ => true) (fun _ => .aborted) reactor.waits }

/-- What an effect of the session does to its operations; setting the expiry
of a timer cancels its pending wait. -/
def perform (reactor : Reactor) : Effect → Reactor
  | .listenerReceive => reactor.launch .listenerReceive
  | .sendTo _ _ => reactor.launch .send
  | .receiveFrom => reactor.launch .receive
  | .startTimer duration =>
      { reactor.cancelTimer with
        waits := start duration reactor.entries reactor.cancelTimer.waits }
  | .cancelTimer => reactor.cancelTimer
  | .cancelSocket | .closeSocket => reactor.cancelSocket .session
  | .openFile _ _ | .writeFile _ | .closeFile => reactor

def performAll (reactor : Reactor) (effects : List Effect) : Reactor :=
  effects.foldl perform reactor

end Reactor

/-- What happens to a session and its operations. -/
inductive Occurrence
  /-- The operating system completes an operation. -/
  | arrive (serial : Nat) (completion : Completion)
  /-- The timer expires. -/
  | expire (serial : Nat)
  /-- The handler of a completed operation starts. -/
  | handle (serial : Nat)
  /-- A wait handler runs. -/
  | wake (serial : Nat)
  /-- The running handler takes its next step. -/
  | proceed (input : Input)

namespace Reactor

/-- The step of the session that an occurrence is. -/
def input? (reactor : Reactor) : Occurrence → Option Input
  | .handle serial =>
      ((lookup serial reactor.flights).bind Flight.result).map
        fun result => .complete result.1
  | .proceed input => some input
  | _ => none

/-- A wait handler that finds the data socket closed throws; the run ends
there, as it does when an exit action throws. -/
def step (reactor : Reactor) : Occurrence → Option (Reactor × List Effect)
  | .arrive serial completion =>
      if awaits serial reactor.flights = some completion.operation then
        some ({ reactor with
          flights := finish serial (completion, .kernel) reactor.flights },
          [])
      else none
  | .expire serial =>
      if (awaits serial reactor.waits).isSome then
        some ({ reactor with
          waits := finish serial .expired reactor.waits }, [])
      else none
  | .handle serial =>
      match (lookup serial reactor.flights).bind Flight.result with
      | some (completion, cause) =>
          (reactor.machine.step (.complete completion)).map fun next =>
            (performAll { reactor with
              machine := next.1
              flights := remove serial reactor.flights
              cause } next.2, next.2)
      | none => none
  | .wake serial =>
      if reactor.machine.returned then
        match (lookup serial reactor.waits).bind Flight.result with
        | some .expired =>
            if reactor.machine.data.socketOpen then
              some (cancelSocket { reactor with
                waits := remove serial reactor.waits } (.expiry serial),
                [.cancelSocket])
            else none
        | some .aborted =>
            some ({ reactor with
              waits := remove serial reactor.waits }, [])
        | none => none
      else none
  | .proceed (.complete _) => none
  | .proceed input =>
      (reactor.machine.step input).map fun next =>
        (performAll { reactor with machine := next.1 } next.2, next.2)

/-- A session that was configured and started. -/
def started (config : Config) : Reactor :=
  performAll
    { machine := Machine.started config
      flights := []
      waits := []
      entries := 0
      cause := .kernel }
    (State.accepting.entry (SessionData.fresh config)).2

end Reactor

/-- The transition system of a session with its handlers. -/
def reactor : System Reactor Occurrence Effect where
  step := Reactor.step

abbrev ReactorStep := Transition Reactor Occurrence Effect

/-- Runs of a session with its handlers from its start. -/
def Reactor.Reaches (config : Config) (history : List ReactorStep)
    (last : Reactor) : Prop :=
  reactor.Run (Reactor.started config) history last

/-- What a step of the reactor does. -/
inductive ReactorCases (reactor : Reactor) :
    Occurrence → List Effect → Reactor → Prop
  | arrive {serial : Nat} {completion : Completion}
      (awaited : awaits serial reactor.flights =
        some completion.operation) :
      ReactorCases reactor (.arrive serial completion) []
        { reactor with
          flights := finish serial (completion, .kernel) reactor.flights }
  | expire {serial : Nat} (armed : (awaits serial reactor.waits).isSome) :
      ReactorCases reactor (.expire serial) []
        { reactor with waits := finish serial .expired reactor.waits }
  | handle {flight : Flight Operation (Completion × Cause)}
      {completion : Completion} {cause : Cause} {next : Machine}
      {effects : List Effect}
      (located : lookup flight.serial reactor.flights = some flight)
      (queued : flight.result = some (completion, cause))
      (taken : reactor.machine.step (.complete completion) =
        some (next, effects)) :
      ReactorCases reactor (.handle flight.serial) effects
        (Reactor.performAll { reactor with
          machine := next
          flights := remove flight.serial reactor.flights
          cause } effects)
  | wakeExpired {wait : Flight Nat Wait} (member : wait ∈ reactor.waits)
      (expired : wait.result = some .expired)
      (idle : reactor.machine.returned = true)
      (isOpen : reactor.machine.data.socketOpen = true) :
      ReactorCases reactor (.wake wait.serial) [.cancelSocket]
        (Reactor.cancelSocket { reactor with
          waits := remove wait.serial reactor.waits } (.expiry wait.serial))
  | wakeAborted {wait : Flight Nat Wait} (member : wait ∈ reactor.waits)
      (aborted : wait.result = some .aborted)
      (idle : reactor.machine.returned = true) :
      ReactorCases reactor (.wake wait.serial) []
        { reactor with waits := remove wait.serial reactor.waits }
  | proceed {input : Input} {next : Machine} {effects : List Effect}
      (internal : ∀ completion, input ≠ .complete completion)
      (taken : reactor.machine.step input = some (next, effects)) :
      ReactorCases reactor (.proceed input) effects
        (Reactor.performAll { reactor with machine := next } effects)

theorem reactorCases {before after : Reactor} {occurrence : Occurrence}
    {effects : List Effect}
    (stepped : before.step occurrence = some (after, effects)) :
    ReactorCases before occurrence effects after := by
  cases occurrence with
  | arrive serial completion =>
      simp only [Reactor.step, Option.ite_none_right_eq_some,
        Option.some.injEq, Prod.mk.injEq] at stepped
      obtain ⟨awaited, rfl, rfl⟩ := stepped
      exact .arrive awaited
  | expire serial =>
      simp only [Reactor.step, Option.ite_none_right_eq_some,
        Option.some.injEq, Prod.mk.injEq] at stepped
      obtain ⟨armed, rfl, rfl⟩ := stepped
      exact .expire armed
  | handle serial =>
      simp only [Reactor.step] at stepped
      split at stepped
      · rename_i completion cause found
        obtain ⟨flight, located, queued⟩ := Option.bind_eq_some_iff.mp found
        obtain ⟨_, rfl⟩ := lookup_eq_some located
        simp only [Option.map_eq_some_iff, Prod.mk.injEq] at stepped
        obtain ⟨⟨next, _⟩, taken, rfl, rfl⟩ := stepped
        exact .handle located queued taken
      · simp at stepped
  | wake serial =>
      simp only [Reactor.step] at stepped
      split at stepped
      · rename_i idle
        split at stepped
        · rename_i found
          obtain ⟨wait, located, expired⟩ := Option.bind_eq_some_iff.mp found
          obtain ⟨member, rfl⟩ := lookup_eq_some located
          simp only [Option.ite_none_right_eq_some, Option.some.injEq,
            Prod.mk.injEq] at stepped
          obtain ⟨isOpen, rfl, rfl⟩ := stepped
          exact .wakeExpired member expired idle isOpen
        · rename_i found
          obtain ⟨wait, located, aborted⟩ := Option.bind_eq_some_iff.mp found
          obtain ⟨member, rfl⟩ := lookup_eq_some located
          simp only [Option.some.injEq, Prod.mk.injEq] at stepped
          obtain ⟨rfl, rfl⟩ := stepped
          exact .wakeAborted member aborted idle
        · simp at stepped
      · simp at stepped
  | proceed input =>
      have internal (completion : Completion) :
          input ≠ .complete completion := by
        rintro rfl
        simp [Reactor.step] at stepped
      have taken : (before.machine.step input).map (fun next =>
          (Reactor.performAll { before with machine := next.1 } next.2,
            next.2)) = some (after, effects) := by
        cases input with
        | complete completion => exact absurd rfl (internal completion)
        | _ => exact stepped
      simp only [Option.map_eq_some_iff, Prod.mk.injEq] at taken
      obtain ⟨⟨next, _⟩, taken, rfl, rfl⟩ := taken
      exact .proceed internal taken

section Performing

variable {reactor : Reactor}

@[simp]
theorem perform_machine (effect : Effect) :
    (reactor.perform effect).machine = reactor.machine := by
  cases effect <;> rfl

theorem performAll_append (first second : List Effect) :
    reactor.performAll (first ++ second) =
      (reactor.performAll first).performAll second :=
  List.foldl_append

theorem performAll_invariant (Invariant : Reactor → Prop)
    {effects : List Effect} (initially : Invariant reactor)
    (preserved : ∀ reactor, ∀ effect ∈ effects, Invariant reactor →
      Invariant (reactor.perform effect)) :
    Invariant (reactor.performAll effects) := by
  induction effects generalizing reactor with
  | nil => exact initially
  | cons effect effects ih =>
      exact ih (preserved reactor effect (by simp) initially)
        fun other member inside =>
          preserved other member (List.mem_cons_of_mem effect inside)

@[simp]
theorem performAll_machine (effects : List Effect) :
    (reactor.performAll effects).machine = reactor.machine :=
  performAll_invariant (fun other => other.machine = reactor.machine) rfl
    fun _ effect _ same => (perform_machine effect).trans same

theorem perform_kinds (effect : Effect) :
    (reactor.perform effect).flights.map Flight.kind =
      reactor.flights.map Flight.kind ++ effect.operation.toList := by
  cases effect <;>
    simp [Reactor.perform, Reactor.launch, Reactor.cancelSocket,
      Reactor.cancelTimer, start_map_kind, Effect.operation]

/-- Effects start the operations they stand for, and withdraw none. -/
theorem performAll_kinds (effects : List Effect) :
    (reactor.performAll effects).flights.map Flight.kind =
      reactor.flights.map Flight.kind ++
        effects.filterMap Effect.operation := by
  induction effects generalizing reactor with
  | nil => simp [Reactor.performAll]
  | cons effect effects ih =>
      have rest : (reactor.performAll (effect :: effects)).flights.map
          Flight.kind = (reactor.perform effect).flights.map Flight.kind ++
            effects.filterMap Effect.operation := ih
      rw [rest, perform_kinds, List.append_assoc]
      cases started : effect.operation <;> simp [started]

end Performing

/-- The operations in flight are those the session waits for. -/
structure Reactor.WellFormed (config : Config) (reactor : Reactor) :
    Prop where
  machine : reactor.machine.WellFormed config
  kinds : reactor.flights.map Flight.kind = reactor.machine.outstanding

section Steps

variable {config : Config} {before after : Reactor}
  {occurrence : Occurrence} {effects : List Effect}

theorem Shape.outstanding_length {state : State} {tasks : List Task}
    {outstanding : List Operation} (shape : Shape state tasks outstanding) :
    outstanding.length ≤ 1 := by
  cases shape <;> simp

theorem Reactor.WellFormed.flights_length
    (wellFormed : before.WellFormed config) :
    before.flights.length ≤ 1 := by
  have short := wellFormed.machine.shape.outstanding_length
  rw [← wellFormed.kinds, List.length_map] at short
  exact short

/-- The operation whose handler starts is the only one in flight. -/
theorem Reactor.WellFormed.eq_singleton
    (wellFormed : before.WellFormed config)
    {flight : Flight Operation (Completion × Cause)}
    (member : flight ∈ before.flights) : before.flights = [flight] := by
  have short := wellFormed.flights_length
  match flights : before.flights with
  | [] => simp [flights] at member
  | [other] =>
      rw [flights, List.mem_singleton] at member
      rw [member]
  | _ :: _ :: _ => simp [flights] at short

theorem Reactor.started_wellFormed (config : Config) :
    (Reactor.started config).WellFormed config := by
  constructor
  · rw [Reactor.started, performAll_machine]
    exact Machine.started_wellFormed config
  · rw [Reactor.started, performAll_machine, performAll_kinds]
    rfl

theorem Reactor.WellFormed.step (wellFormed : before.WellFormed config)
    (stepped : before.step occurrence = some (after, effects)) :
    after.WellFormed config := by
  obtain ⟨machine, kinds⟩ := id wellFormed
  cases reactorCases stepped with
  | arrive awaited => exact ⟨machine, (finish_map_kind _ _).trans kinds⟩
  | expire armed => exact ⟨machine, kinds⟩
  | wakeExpired member expired idle isOpen =>
      exact ⟨machine, by simpa [Reactor.cancelSocket] using kinds⟩
  | wakeAborted member aborted idle => exact ⟨machine, kinds⟩
  | @handle flight completion cause next _ located queued taken =>
      have member := (lookup_eq_some located).1
      constructor
      · rw [performAll_machine]
        exact machine.step taken
      · rw [performAll_machine, performAll_kinds,
          wellFormed.eq_singleton member, remove_singleton]
        have only : before.machine.outstanding = [flight.kind] := by
          rw [← kinds, wellFormed.eq_singleton member]
          rfl
        cases stepCases taken with
        | complete settled idle started =>
            rw [only, List.mem_singleton] at started
            rw [only, ← started, List.erase_cons_head]
            cases completion <;> rfl
  | @proceed input next _ internal taken =>
      constructor
      · rw [performAll_machine]
        exact machine.step taken
      · rw [performAll_machine, performAll_kinds, kinds]
        cases stepCases taken with
        | complete => exact absurd rfl (internal _)
        | parse settled running => simp
        | reject settled running refused => simp
        | fire settled running firing exits acts enters allEffects => rfl

theorem Reactor.Reaches.wellFormed {history : List ReactorStep}
    (run : Reactor.Reaches config history after) : after.WellFormed config :=
  run.invariant (Reactor.WellFormed config)
    (Reactor.started_wellFormed config)
    fun _ before admitted => before.step admitted

/-- The run of the session inside a run with its handlers. -/
def sessionSteps (history : List ReactorStep) : List Step :=
  history.filterMap (System.project Reactor.machine Reactor.input?)

theorem Reactor.step_machine
    (stepped : before.step occurrence = some (after, effects)) :
    (before.input? occurrence = none → after.machine = before.machine) ∧
      ∀ input, before.input? occurrence = some input →
        before.machine.step input = some (after.machine, effects) := by
  cases reactorCases stepped with
  | handle located queued taken =>
      simp only [Reactor.input?, located, Option.bind_some, queued,
        Option.map_some, Option.some.injEq, performAll_machine]
      exact ⟨by simp, fun _ same => same ▸ taken⟩
  | proceed internal taken =>
      simp only [Reactor.input?, Option.some.injEq, performAll_machine]
      exact ⟨by simp, fun _ same => same ▸ taken⟩
  | _ => exact ⟨fun _ => rfl, by simp [Reactor.input?]⟩

/-- Sessions with their handlers do what sessions do. -/
theorem Reactor.Reaches.session {history : List ReactorStep}
    (run : Reactor.Reaches config history after) :
    MsmTftp.Reaches config (sessionSteps history) after.machine := by
  have projected : MsmTftp.session.Run (Reactor.started config).machine
      (sessionSteps history) after.machine :=
    System.Run.project run Reactor.machine Reactor.input?
      (fun _ admitted => (Reactor.step_machine admitted).1)
      fun _ input admitted => (Reactor.step_machine admitted).2 input
  rw [Reactor.started, performAll_machine] at projected
  exact projected

/-- Every handler is queued with a completion of its operation. -/
def Reactor.Matched (reactor : Reactor) : Prop :=
  ∀ flight ∈ reactor.flights, ∀ completion cause,
    flight.result = some (completion, cause) →
      completion.operation = flight.kind

theorem Reactor.Matched.cancelSocket (matched : before.Matched)
    (cause : Cause) : (before.cancelSocket cause).Matched := by
  apply cancel_forall _ Operation.usesDataSocket
    (fun operation => (operation.aborted, cause)) matched
  intro flight member pending selected completion cause queued
  obtain ⟨rfl, rfl⟩ := Prod.mk.inj (Option.some.inj queued)
  exact Operation.operation_aborted flight.kind

theorem Reactor.Matched.perform (matched : before.Matched)
    (effect : Effect) : (before.perform effect).Matched := by
  have launched (operation : Operation) : (before.launch operation).Matched :=
    start_forall _ matched (by simp)
  cases effect with
  | listenerReceive => exact launched .listenerReceive
  | sendTo packet receiver => exact launched .send
  | receiveFrom => exact launched .receive
  | cancelSocket => exact matched.cancelSocket .session
  | closeSocket => exact matched.cancelSocket .session
  | _ => exact matched

theorem Reactor.Matched.step (matched : before.Matched)
    (wellFormed : before.WellFormed config)
    (stepped : before.step occurrence = some (after, effects)) :
    after.Matched := by
  have performed (other : Reactor) (holds : other.Matched) :
      (other.performAll effects).Matched :=
    performAll_invariant Reactor.Matched holds
      fun _ effect _ holds => holds.perform effect
  cases reactorCases stepped with
  | @arrive serial completion awaited =>
      apply finish_forall _ matched
      intro flight member pending same other cause queued
      obtain ⟨rfl, rfl⟩ := Prod.mk.inj (Option.some.inj queued)
      rw [wellFormed.eq_singleton member] at awaited
      simpa [awaits, lookup, same, pending] using awaited.symm
  | expire armed => exact matched
  | handle located queued taken =>
      exact performed _ (remove_forall _ matched)
  | wakeExpired member expired idle isOpen =>
      apply Reactor.Matched.cancelSocket
      exact matched
  | wakeAborted member aborted idle => exact matched
  | proceed internal taken => exact performed _ matched

theorem Reactor.Reaches.matched {history : List ReactorStep}
    (run : Reactor.Reaches config history after) : after.Matched := by
  have started : (Reactor.started config).Matched :=
    performAll_invariant Reactor.Matched (by simp [Reactor.Matched])
      fun _ effect _ holds => holds.perform effect
  have invariant : after.WellFormed config ∧ after.Matched :=
    System.Run.invariant run
      (fun reactor => reactor.WellFormed config ∧ reactor.Matched)
      ⟨Reactor.started_wellFormed config, started⟩
      fun _ ⟨wellFormed, matched⟩ admitted =>
        ⟨wellFormed.step admitted, matched.step wellFormed admitted⟩
  exact invariant.2

/-- A queued handler starts as soon as no other handler runs. -/
theorem Reactor.Reaches.exists_handle {history : List ReactorStep}
    (run : Reactor.Reaches config history after)
    {flight : Flight Operation (Completion × Cause)}
    (member : flight ∈ after.flights) (queued : flight.result ≠ none)
    (idle : after.machine.returned = true) :
    ∃ next effects,
      after.step (.handle flight.serial) = some (next, effects) := by
  have wellFormed := run.wellFormed
  obtain ⟨⟨completion, cause⟩, queued⟩ := Option.ne_none_iff_exists'.mp queued
  have located : lookup flight.serial after.flights = some flight := by
    rw [wellFormed.eq_singleton member]
    simp [lookup]
  have outstanding : after.machine.outstanding = [flight.kind] := by
    rw [← wellFormed.kinds, wellFormed.eq_singleton member]
    rfl
  have completes : completion.operation ∈ after.machine.outstanding := by
    rw [outstanding, run.matched flight member completion cause queued]
    exact List.mem_singleton_self _
  simp [Reactor.step, located, queued, Machine.step, idle, completes]

theorem Shape.exists_row {state : State} {event : Event} {tasks : List Task}
    {outstanding : List Operation}
    (shape : Shape state (.process event :: tasks) outstanding) :
    ∃ row ∈ jointTransitionTable,
      row.source = state ∧ row.event = some event.kind := by
  cases shape with
  | acceptFailed => decide
  | malformed => decide
  | requested =>
      exact show ∃ row ∈ jointTransitionTable,
        row.source = .accepting ∧ row.event = some .requestReceived by decide
  | sent drives =>
      cases state <;> first | decide | simp [State.operation] at drives
  | received drives =>
      cases state <;> first | decide | simp [State.operation] at drives
  | timedOut drives =>
      cases state <;> first | decide | simp [State.operation] at drives

end Steps

/-- Every event fits the state in which it is processed, and the session never
has more than one operation outstanding. -/
theorem events_expected (config : Config) (history : List ReactorStep)
    (last : Reactor) (run : Reactor.Reaches config history last) :
    (∀ event tasks, last.machine.tasks = .process event :: tasks →
      ∃ row ∈ jointTransitionTable, row.source = last.machine.state ∧
        row.event = some event.kind) ∧
      last.flights.length ≤ 1 := by
  have wellFormed := run.wellFormed
  refine ⟨fun event tasks running => ?_, wellFormed.flights_length⟩
  have shape := wellFormed.machine.shape
  rw [running] at shape
  exact shape.exists_row

section Examples

/-- Occurrences, each with the answers of the operating system to the handler
it starts. -/
def Reactor.script (entries : List (Occurrence × Environment)) :
    List (Occurrence × (Reactor → Option Occurrence)) :=
  entries.map fun entry =>
    (entry.1, fun reactor =>
      (reactor.machine.pending entry.2).map Occurrence.proceed)

/-- A download in which the ACK of no packet and the expiry of the timer are
queued together; the wait handler runs after the ACK was ignored. -/
def lateWait : List (Occurrence × Environment) :=
  [(.arrive 1 (.accepted .client (requestOf .readRequest)), {}),
    (.handle 1, {}), (.arrive 2 (.sent false), {}), (.handle 2, {}),
    (.arrive 3 (.received .client (ackOf 0)), {}), (.expire 3, {}),
    (.handle 3, {}), (.wake 3, {}), (.handle 4, {})]

/-- The time-out that a late wait handler causes is processed in
`WaitingForAck`. -/
theorem late_timeOut_expected :
    ∃ history last, Reactor.Reaches .loopback history last ∧
      last.machine.tasks = [.process .timedOut] ∧
        (∃ row ∈ jointTransitionTable, row.source = last.machine.state ∧
          row.event = some .timedOut) ∧ last.flights.length ≤ 1 := by
  obtain ⟨history, last, run, timedOut⟩ := reactor.exists_run_of_execute
    (Reactor.started .loopback) 7 (Reactor.script lateWait)
    (fun _ last => decide (last.machine.tasks = [.process .timedOut]))
    (by decide +kernel)
  have running := of_decide_eq_true timedOut
  obtain ⟨expected, single⟩ := events_expected .loopback history last run
  exact ⟨history, last, run, running, expected .timedOut [] running, single⟩

end Examples

end MsmTftp
