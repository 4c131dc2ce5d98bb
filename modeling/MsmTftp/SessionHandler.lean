import MsmTftp.SessionPacket

/-!
# Handlers in one go

While a handler runs, nothing is outstanding and each row it fires is followed
by completion rows until a state waits for an operation again.  `Settles` and
`Answers` describe the whole handler of an operation on the data socket, and
agree with the runs of the transition system in both directions.
-/

namespace MsmTftp

open CellBuffer TransitionSystem

/-- The machine that has just entered a state, with the data an action
left. -/
def Machine.entering (state : State) (data : SessionData) : Machine where
  state
  data := (state.entry data).1
  outstanding := (state.entry data).2.filterMap Effect.operation
  tasks := []

/-- The operating system answers the action of a step as allowed. -/
def Step.Meets (step : Step) (allowed : Action → Environment → Prop) : Prop :=
  ∀ row environment, step.input = .fire row environment →
    allowed row.action environment

section Firing

variable {config : Config} {machine next : Machine} {row : Row}
  {environment : Environment} {effects : List Effect}

/-- A firing in a well-formed machine ends the event and enters the target. -/
structure FireCases (machine : Machine) (row : Row)
    (environment : Environment) (event : Option Event)
    (exitEffects effects : List Effect) (next : Machine) : Prop where
  settled : event ≠ none → machine.settled = true
  running : machine.tasks = event.toList.map Task.process
  idle : machine.outstanding = []
  enabled : row ∈ enabledRows machine.state (event.map Event.kind)
    machine.data
  firing : Firing machine.data machine.state (event.map Event.kind)
    row.action row.target
  exits : machine.state.exit machine.data = some exitEffects
  effects_eq : effects = exitEffects ++
    (row.action.run environment event machine.data).2 ++
      (row.target.entry
        (row.action.run environment event machine.data).1).2
  next_eq : next = Machine.entering row.target
    (row.action.run environment event machine.data).1

theorem FireCases.event_eq {event : Option Event} {exitEffects : List Effect}
    {processed : Event}
    (cases : FireCases machine row environment event exitEffects effects
      next) (running : machine.tasks = [.process processed]) :
    event = some processed := by
  have tasks := cases.running
  rw [running] at tasks
  cases event with
  | none => simp at tasks
  | some event => simpa using tasks.symm

theorem FireCases.packets {event : Option Event} {exitEffects : List Effect}
    (cases : FireCases machine row environment event exitEffects effects
      next) :
    effects.filterMap Effect.packet =
      if row.target.operation = some .send then
        [((row.action.run environment event machine.data).1.outgoing,
          (row.action.run environment event
            machine.data).1.agreedRemoteEndpoint)]
      else [] := by
  rw [cases.effects_eq]
  exact fired_packets cases.exits rfl rfl

theorem FireCases.written {event : Option Event} {exitEffects : List Effect}
    (cases : FireCases machine row environment event exitEffects effects
      next) :
    effects.filterMap Effect.written =
      if row.action = .writeData ∧ (machine.data.fileStream.write
          environment.acceptsWrite).2 = true then
        [Packet.payload machine.data.incoming]
      else [] := by
  rw [cases.effects_eq]
  exact fired_written cases.exits rfl rfl

theorem Machine.WellFormed.fireCases (wellFormed : machine.WellFormed config)
    (stepped : machine.step (.fire row environment) = some (next, effects)) :
    ∃ event exitEffects,
      FireCases machine row environment event exitEffects effects next := by
  cases stepCases stepped with
  | @fire _ _ event tasks exitEffects settled running firing exits acted
      entered acts enters _ allEffects enabled =>
      obtain ⟨rest, nothing⟩ := wellFormed.shape.of_firing running firing
        fun accepts => (wellFormed.pristine accepts).hasError
      subst rest
      refine ⟨event, exitEffects, settled, by simpa using running, nothing,
        enabled, firing, exits, by rw [allEffects, enters, acts], ?_⟩
      have silent : (exitEffects ++ acted.2).filterMap Effect.operation =
          [] := by
        simp [exit_operations exits, acts]
      rw [allEffects, List.filterMap_append, silent, nothing, enters, acts]
      rfl

/-- Behind the events of a handler, its steps fire rows that wait for
none. -/
theorem Machine.WellFormed.exists_fireCases_of_idle
    (wellFormed : machine.WellFormed config) {input : Input}
    (idle : machine.tasks = [])
    (stepped : machine.step input = some (next, effects))
    (internal : ∀ completion, input ≠ .complete completion) :
    ∃ row environment exitEffects, input = .fire row environment ∧
      FireCases machine row environment none exitEffects effects next := by
  cases input with
  | complete completion => exact absurd rfl (internal completion)
  | parse =>
      cases stepCases stepped with
      | parse settled running => simp [idle] at running
  | reject =>
      cases stepCases stepped with
      | reject settled running => simp [idle] at running
  | fire row environment =>
      obtain ⟨event, exitEffects, cases⟩ := wellFormed.fireCases stepped
      obtain rfl : event = none := by
        cases event with
        | none => rfl
        | some event => simpa [idle] using cases.running
      exact ⟨row, environment, exitEffects, rfl, cases⟩

/-- The last event of a handler is refused, or a row for it fires. -/
theorem Machine.WellFormed.exists_fireCases_of_event
    (wellFormed : machine.WellFormed config) {input : Input} {event : Event}
    (running : machine.tasks = [.process event])
    (stepped : machine.step input = some (next, effects))
    (internal : ∀ completion, input ≠ .complete completion) :
    (input = .reject ∧ effects = [] ∧ next = { machine with tasks := [] } ∧
      ∀ action target, ¬ Firing machine.data machine.state
        (some event.kind) action target) ∨
      ∃ row environment exitEffects, input = .fire row environment ∧
        FireCases machine row environment (some event) exitEffects effects
          next := by
  cases input with
  | complete completion => exact absurd rfl (internal completion)
  | parse =>
      cases stepCases stepped with
      | parse settled parsing => simp [running] at parsing
  | reject =>
      left
      cases stepCases stepped with
      | reject settled rejecting refused =>
          simp only [running, List.cons.injEq, Task.process.injEq]
            at rejecting
          obtain ⟨rfl, rfl⟩ := rejecting
          exact ⟨rfl, rfl, rfl, refused⟩
  | fire row environment =>
      right
      obtain ⟨answered, exitEffects, cases⟩ := wellFormed.fireCases stepped
      obtain rfl : answered = some event := cases.event_eq running
      exact ⟨row, environment, exitEffects, rfl, cases⟩

theorem Machine.WellFormed.accepting_of_parse
    (wellFormed : machine.WellFormed config)
    (stepped : machine.step .parse = some (next, effects)) :
    machine.state = .accepting := by
  have shape := wellFormed.shape
  cases stepCases stepped with
  | parse settled running =>
      rw [running] at shape
      generalize machine.state = state at shape ⊢
      generalize machine.outstanding = outstanding at shape
      cases shape
      rfl

theorem Machine.WellFormed.accepting_of_reject
    (wellFormed : machine.WellFormed config)
    (stepped : machine.step .reject = some (next, effects)) :
    machine.state = .accepting := by
  have shape := wellFormed.shape
  cases stepCases stepped with
  | @reject event tasks settled running refused =>
      rw [running] at shape
      generalize machine.state = state at shape refused ⊢
      generalize machine.outstanding = outstanding at shape
      cases shape with
      | sent drives =>
          obtain ⟨_, _, firing⟩ := exists_sent_firing machine.data drives
          exact absurd firing (refused _ _)
      | received drives =>
          obtain ⟨_, _, firing⟩ := exists_received_firing machine.data drives
          exact absurd firing (refused _ _)
      | timedOut drives =>
          obtain ⟨_, _, firing⟩ := exists_timedOut_firing machine.data drives
          exact absurd firing (refused _ _)
      | _ => rfl

theorem step_of_enabled (environment : Environment) {event : Option Event}
    {exitEffects : List Effect}
    (settled : event ≠ none → machine.settled = true)
    (running : machine.tasks = event.toList.map Task.process)
    (idle : machine.outstanding = [])
    (enabled : row ∈ enabledRows machine.state (event.map Event.kind)
      machine.data)
    (exits : machine.state.exit machine.data = some exitEffects) :
    machine.step (.fire row environment) =
      some (Machine.entering row.target
        (row.action.run environment event machine.data).1,
        exitEffects ++ (row.action.run environment event machine.data).2 ++
          (row.target.entry
            (row.action.run environment event machine.data).1).2) := by
  obtain ⟨_, sources, events, _⟩ := mem_enabledRows.mp enabled
  have fired : machine.fire row environment event [] =
      some (Machine.entering row.target
        (row.action.run environment event machine.data).1,
        exitEffects ++ (row.action.run environment event machine.data).2 ++
          (row.target.entry
            (row.action.run environment event machine.data).1).2) := by
    simp [Machine.fire, Row.fire, sources, exits, Machine.entering, idle,
      exit_operations exits]
  cases event with
  | none =>
      simp only [Option.toList_none, List.map_nil] at running
      simp only [Option.map_none] at events enabled
      simp [Machine.step, events, running, enabled, fired]
  | some event =>
      simp only [Option.toList_some, List.map_cons, List.map_nil] at running
      simp only [Option.map_some] at events enabled
      simp [Machine.step, events, running, settled, enabled, fired]

theorem exists_step_of_firing (machine : Machine)
    (environment : Environment) (event : Option Event) {action : Action}
    {target : State} {exitEffects : List Effect}
    (settled : event ≠ none → machine.settled = true)
    (running : machine.tasks = event.toList.map Task.process)
    (idle : machine.outstanding = [])
    (firing : Firing machine.data machine.state (event.map Event.kind) action
      target)
    (exits : machine.state.exit machine.data = some exitEffects) :
    ∃ row, row.action = action ∧ machine.step (.fire row environment) =
      some (Machine.entering target
        (action.run environment event machine.data).1,
        exitEffects ++ (action.run environment event machine.data).2 ++
          (target.entry
            (action.run environment event machine.data).1).2) := by
  obtain ⟨row, enabled, rfl, rfl⟩ := firing.exists_row
  exact ⟨row, rfl,
    step_of_enabled environment settled running idle enabled exits⟩

end Firing

/-- Completion rows from a state just entered up to the return of the handler;
every answer of the operating system is allowed. -/
inductive Settles (allowed : Action → Environment → Prop) :
    State → SessionData → List Effect → Machine → Prop
  | waits {state : State} {data : SessionData}
      (waits : state.operation ≠ none) :
      Settles allowed state data (state.entry data).2
        (Machine.entering state data)
  | passes {state target : State} {data : SessionData} {action : Action}
      (environment : Environment) {effects : List Effect} {next : Machine}
      (permitted : allowed action environment)
      (firing : Firing data state none action target)
      (settles : Settles allowed target
        (action.run environment none data).1 effects next) :
      Settles allowed state data
        ((action.run environment none data).2 ++ effects) next

/-- The handler of an operation on the data socket: the row for its event and
the completion rows behind it. -/
inductive Answers (allowed : Action → Environment → Prop) (machine : Machine)
    (completion : Completion) : List Effect → Machine → Prop
  | event {event : Event} {action : Action} {target : State}
      (environment : Environment) {exitEffects effects : List Effect}
      {next : Machine} (permitted : allowed action environment)
      (raises : (completion.start machine.data).2.1 = [.process event])
      (firing : Firing (completion.start machine.data).1 machine.state
        (some event.kind) action target)
      (exits : machine.state.exit (completion.start machine.data).1 =
        some exitEffects)
      (settles : Settles allowed target
        (action.run environment (some event)
          (completion.start machine.data).1).1 effects next) :
      Answers allowed machine completion
        ((completion.start machine.data).2.2 ++ (exitEffects ++
          ((action.run environment (some event)
            (completion.start machine.data).1).2 ++ effects))) next

section Passing

variable {data : SessionData} {state : State}

theorem entry_of_passing (passes : state.operation = none) :
    state.entry data = (data, []) := by
  cases state <;> simp_all [State.operation, State.entry]

theorem exit_of_passing (passes : state.operation = none) :
    state.exit data = some [] := by
  cases state <;> simp_all [State.operation, State.exit]

theorem entering_of_passing (passes : state.operation = none) :
    Machine.entering state data = ⟨state, data, [], []⟩ := by
  simp [Machine.entering, entry_of_passing passes]

@[simp]
theorem entering_state : (Machine.entering state data).state = state :=
  rfl

@[simp]
theorem entering_tasks : (Machine.entering state data).tasks = [] :=
  rfl

theorem entering_data (other : state ≠ .accepting) :
    (Machine.entering state data).data = data := by
  simp [Machine.entering, entry_data, other]

end Passing

section Landing

variable {machine next : Machine} {row : Row} {environment : Environment}
  {event : Option Event} {exitEffects effects : List Effect}

theorem FireCases.state_eq
    (cases : FireCases machine row environment event exitEffects effects
      next) : next.state = row.target := by
  rw [cases.next_eq, entering_state]

theorem FireCases.tasks_eq
    (cases : FireCases machine row environment event exitEffects effects
      next) : next.tasks = [] := by
  rw [cases.next_eq, entering_tasks]

theorem FireCases.data_eq
    (cases : FireCases machine row environment event exitEffects effects
      next) (other : row.target ≠ .accepting) :
    next.data = (row.action.run environment event machine.data).1 := by
  rw [cases.next_eq, entering_data other]

end Landing

section Correspondence

variable {config : Config} {machine next : Machine}
  {allowed : Action → Environment → Prop}

theorem settles_of_run {state : State} {data : SessionData}
    {rest : List Step} (wellFormed :
      (Machine.entering state data).WellFormed config)
    (run : session.Run (Machine.entering state data) rest next)
    (internal : ∀ step ∈ rest, step.Internal)
    (meets : ∀ step ∈ rest, step.Meets allowed)
    (returned : next.returned = true) :
    Settles allowed state data
      ((state.entry data).2 ++ rest.flatMap Transition.outputs) next := by
  induction rest generalizing state data with
  | nil =>
      obtain rfl := System.run_nil.mp run
      simpa using Settles.waits (returned_iff.mp returned).1
  | cons step rest ih =>
      obtain ⟨before, input, outputs, after⟩ := step
      obtain ⟨rfl, stepped, continues⟩ := session_run_cons.mp run
      obtain ⟨here, later⟩ := List.forall_mem_cons.mp internal
      obtain ⟨permits, meetsLater⟩ := List.forall_mem_cons.mp meets
      obtain ⟨row, environment, exitEffects, rfl, cases⟩ :=
        wellFormed.exists_fireCases_of_idle entering_tasks stepped here
      have passes := cases.firing.operation_eq_none
      simp only [entering_state] at passes
      have firing := cases.firing
      have exits := cases.exits
      have outputs_eq := cases.effects_eq
      have after_eq := cases.next_eq
      rw [entering_of_passing passes] at firing exits outputs_eq after_eq
      rw [exit_of_passing passes, Option.some.injEq] at exits
      subst exits after_eq
      have settles := ih (wellFormed.step stepped) continues later meetsLater
      have settled :=
        Settles.passes environment (permits row environment rfl) firing
          settles
      simpa [entry_of_passing passes, outputs_eq] using settled

theorem usesStream_of_run {state : State} {data : SessionData}
    {rest : List Step} (wellFormed :
      (Machine.entering state data).WellFormed config)
    (run : session.Run (Machine.entering state data) rest next)
    (internal : ∀ step ∈ rest, step.Internal)
    (other : state ≠ .readRequestReceived) :
    ∀ step ∈ rest, ∀ row environment, step.input = .fire row environment →
      row.action.usesStream = false := by
  induction rest generalizing state data with
  | nil => simp
  | cons step rest ih =>
      obtain ⟨before, input, outputs, after⟩ := step
      obtain ⟨rfl, stepped, continues⟩ := session_run_cons.mp run
      obtain ⟨here, later⟩ := List.forall_mem_cons.mp internal
      obtain ⟨row, environment, exitEffects, rfl, cases⟩ :=
        wellFormed.exists_fireCases_of_idle entering_tasks stepped here
      have formed := wellFormed.step stepped
      obtain ⟨silent, stays⟩ := cases.firing.usesStream_of_completion other
      have after_eq := cases.next_eq
      subst after_eq
      refine List.forall_mem_cons.mpr ⟨?_, ih formed continues later stays⟩
      rintro row environment taken
      simp only [Input.fire.injEq] at taken
      exact taken.1 ▸ silent

theorem Settles.exists_run {state : State} {data : SessionData}
    {effects : List Effect}
    (settles : Settles allowed state data effects next) :
    ∃ rest : List Step,
      session.Run (Machine.entering state data) rest next ∧
      (∀ step ∈ rest, Step.Internal step) ∧
        (∀ step ∈ rest, Step.Meets step allowed) ∧ next.returned = true ∧
          effects = (state.entry data).2 ++
            rest.flatMap Transition.outputs := by
  induction settles with
  | @waits state data waits =>
      exact ⟨[], rfl, by simp, by simp,
        returned_iff.mpr ⟨waits, rfl⟩, by simp⟩
  | @passes state target data action environment effects next permitted
      firing settles ih =>
      obtain ⟨rest, run, internal, meets, returned, effects_eq⟩ := ih
      have passes := firing.operation_eq_none
      obtain ⟨row, rfl, stepped⟩ := exists_step_of_firing
        (Machine.entering state data) environment none (by simp) rfl
        (by rw [entering_of_passing passes])
        (by rw [entering_of_passing passes]; exact firing)
        (exit_of_passing passes)
      refine ⟨⟨_, .fire row environment, _, _⟩ :: rest,
        ⟨rfl, stepped, ?_⟩, ?_, ?_, returned, ?_⟩
      · rw [entering_of_passing passes]
        exact run
      · simp only [List.forall_mem_cons]
        exact ⟨fun completion => by simp, internal⟩
      · simp only [List.forall_mem_cons]
        refine ⟨?_, meets⟩
        rintro other answers taken
        simp only [Input.fire.injEq] at taken
        obtain ⟨rfl, rfl⟩ := taken
        exact permitted
      · simp [entry_of_passing passes, entering_of_passing passes, effects_eq]

theorem Machine.WellFormed.drives (wellFormed : machine.WellFormed config)
    {completion : Completion} (idle : machine.tasks = [])
    (started : completion.operation ∈ machine.outstanding) :
    machine.state.operation = some completion.operation ∧
      machine.outstanding = [completion.operation] := by
  have shape := wellFormed.shape
  rw [idle] at shape
  generalize machine.state = state at shape ⊢
  generalize machine.outstanding = outstanding at shape started ⊢
  cases shape <;> simp_all

theorem exists_fire_of_run {event : Event} {rest : List Step}
    (wellFormed : machine.WellFormed config)
    (running : machine.tasks = [.process event])
    (fires : ∃ action target, Firing machine.data machine.state
      (some event.kind) action target)
    (run : session.Run machine rest next)
    (internal : ∀ step ∈ rest, step.Internal)
    (returned : next.returned = true) :
    ∃ row environment exitEffects effects after later,
      rest = ⟨machine, .fire row environment, effects, after⟩ :: later ∧
        machine.step (.fire row environment) = some (after, effects) ∧
          FireCases machine row environment (some event) exitEffects effects
            after ∧ session.Run after later next := by
  cases rest with
  | nil =>
      obtain rfl := System.run_nil.mp run
      simp [(returned_iff.mp returned).2] at running
  | cons step rest =>
      obtain ⟨before, input, outputs, after⟩ := step
      obtain ⟨rfl, stepped, continues⟩ := session_run_cons.mp run
      obtain ⟨here, _⟩ := List.forall_mem_cons.mp internal
      rcases wellFormed.exists_fireCases_of_event running stepped here with
        ⟨_, _, _, refused⟩ | ⟨row, environment, exitEffects, rfl, cases⟩
      · obtain ⟨_, _, firing⟩ := fires
        exact absurd firing (refused _ _)
      · exact ⟨row, environment, exitEffects, outputs, after, rest, rfl,
          stepped, cases, continues⟩

/-- A handler with one event left fires a row for it and settles. -/
theorem exists_settles_of_run {event : Event} {rest : List Step}
    (wellFormed : machine.WellFormed config)
    (running : machine.tasks = [.process event])
    (fires : ∃ action target, Firing machine.data machine.state
      (some event.kind) action target)
    (run : session.Run machine rest next)
    (internal : ∀ step ∈ rest, step.Internal)
    (meets : ∀ step ∈ rest, step.Meets allowed)
    (returned : next.returned = true) :
    ∃ action target environment exitEffects effects,
      allowed action environment ∧
        Firing machine.data machine.state (some event.kind) action target ∧
        machine.state.exit machine.data = some exitEffects ∧
        Settles allowed target
          (action.run environment (some event) machine.data).1 effects next ∧
        rest.flatMap Transition.outputs = exitEffects ++
          ((action.run environment (some event) machine.data).2 ++
            effects) ∧
        (target ≠ .readRequestReceived → ∀ step ∈ rest, ∀ row other,
          step.input = .fire row other → row.action.usesStream = true →
            row.action = action ∧ other = environment) := by
  obtain ⟨row, environment, exitEffects, outputs, after, rest, rfl, stepped,
    cases, continues⟩ :=
      exists_fire_of_run wellFormed running fires run internal returned
  obtain ⟨_, later⟩ := List.forall_mem_cons.mp internal
  obtain ⟨permits, meetsLater⟩ := List.forall_mem_cons.mp meets
  have formed := wellFormed.step stepped
  have firing := cases.firing
  have outputs_eq := cases.effects_eq
  have after_eq := cases.next_eq
  subst after_eq
  refine ⟨_, _, environment, exitEffects, _, permits row environment rfl,
    firing, cases.exits,
    settles_of_run formed continues later meetsLater returned, ?_, ?_⟩
  · simp [outputs_eq]
  · intro stays
    refine List.forall_mem_cons.mpr ⟨?_, ?_⟩
    · rintro other answers taken _
      simp only [Input.fire.injEq] at taken
      exact ⟨congrArg Row.action taken.1.symm, taken.2.symm⟩
    · intro step member row other taken uses
      have silent := usesStream_of_run formed continues later stays step member
        row other taken
      simp [silent] at uses

theorem Handles.run {completion : Completion} {history : List Step}
    (handles : Handles machine completion history next) :
    session.Run machine history next := by
  obtain ⟨_, _, _, _, _, run, _⟩ := handles
  exact run

theorem Handles.wellFormed {completion : Completion} {history : List Step}
    (handles : Handles machine completion history next)
    (wellFormed : machine.WellFormed config) : next.WellFormed config :=
  handles.run.invariant (Machine.WellFormed config) wellFormed
    fun _ before admitted => before.step admitted

/-- What holds before a handler and is kept by each of its steps holds when it
returns; the only operation that ends in it is the one it is for. -/
theorem Handles.history_invariant {completion : Completion}
    {history : List Step}
    (handles : Handles machine completion history next)
    (meets : ∀ step ∈ history, Step.Meets step allowed)
    (Invariant : List Step → Machine → Prop)
    (initially : Invariant [] machine)
    (preserved : ∀ past step, Invariant past step.before →
      session.Admits step → Step.Meets step allowed →
        (∀ other, step.input = .complete other → other = completion) →
          Invariant (past ++ [step]) step.after) :
    Invariant history next := by
  have run := handles.run
  obtain ⟨first, rest, rfl, starts, internal, _⟩ := handles
  refine run.history_invariant (fun step => Step.Meets step allowed ∧
    ∀ other, step.input = .complete other → other = completion) ?_ Invariant
      initially fun past step holds admitted both =>
        preserved past step holds admitted both.1 both.2
  intro step member
  refine ⟨meets step member, fun other completes => ?_⟩
  rcases List.mem_cons.mp member with rfl | later
  · rw [starts, Input.complete.injEq] at completes
    exact completes.symm
  · exact absurd completes (internal step later other)

theorem Reachable.handles {completion : Completion} {history : List Step}
    (reachable : Reachable config machine)
    (handles : Handles machine completion history next) :
    Reachable config next := by
  obtain ⟨past, run⟩ := reachable
  exact ⟨past ++ history,
    System.run_append.mpr ⟨machine, run, handles.run⟩⟩

/-- The end of a waiting state shows in no packet and no block. -/
theorem filterMap_after_exit {Observation : Type*}
    {observe : Effect → Option Observation} {exitEffects effects : List Effect}
    (timer : observe .cancelTimer = none)
    (socket : observe .cancelSocket = none)
    (exits : exitEffects = [] ∨
      exitEffects = [.cancelSocket, .cancelTimer]) :
    (Effect.cancelTimer :: (exitEffects ++ effects)).filterMap observe =
      effects.filterMap observe := by
  rcases exits with rfl | rfl <;> simp [timer, socket]

theorem Settles.of_waits {state : State} {data : SessionData}
    {effects : List Effect}
    (settles : Settles allowed state data effects next)
    (waits : state.operation ≠ none) :
    effects = (state.entry data).2 ∧ next = Machine.entering state data := by
  cases settles with
  | waits => exact ⟨rfl, rfl⟩
  | passes _ _ firing => exact absurd firing.operation_eq_none waits

theorem Settles.of_resetted {data : SessionData} {effects : List Effect}
    (settles : Settles allowed .resetted data effects next) :
    next = Machine.entering .accepting data ∧
      effects = (State.accepting.entry data).2 := by
  cases settles with
  | waits waits => exact absurd rfl waits
  | passes environment permitted firing settles =>
      cases firing with
      | restart =>
          obtain ⟨rfl, rfl⟩ := settles.of_waits (by simp [State.operation])
          exact ⟨rfl, rfl⟩

/-- The handler of a received packet.  Outside `ReadRequestReceived` only the
row for the packet reads or writes the file. -/
theorem Handles.received {sender : Endpoint} {datagram : Datagram}
    {history : List Step}
    (handles : Handles machine (.received sender datagram) history next)
    (allowed : Action → Environment → Prop)
    (wellFormed : machine.WellFormed config)
    (meets : ∀ step ∈ history, step.Meets allowed) :
    ∃ action target environment exitEffects effects,
      allowed action environment ∧
      Firing (machine.data.received sender datagram) machine.state
        (some .packetReceived) action target ∧
      (exitEffects = [] ∨ exitEffects = [.cancelSocket, .cancelTimer]) ∧
      Settles allowed target
        (action.run environment (some .packetReceived)
          (machine.data.received sender datagram)).1 effects next ∧
      history.flatMap Transition.outputs = .cancelTimer :: (exitEffects ++
        ((action.run environment (some .packetReceived)
          (machine.data.received sender datagram)).2 ++ effects)) ∧
      (target ≠ .readRequestReceived → ∀ step ∈ history, ∀ row other,
        step.input = .fire row other → row.action.usesStream = true →
          row.action = action ∧ other = environment) := by
  obtain ⟨⟨before, input, outputs, middle⟩, rest, rfl, rfl, internal, run,
    returned⟩ := handles
  obtain ⟨rfl, stepped, continues⟩ := session_run_cons.mp run
  have formed := wellFormed.step stepped
  cases stepCases stepped with
  | complete settled idle started =>
      obtain ⟨drives, _⟩ := wellFormed.drives idle started
      obtain ⟨action, target, environment, exitEffects, effects, permitted,
        firing, exits, settles, outputs_eq, silent⟩ :=
        exists_settles_of_run formed rfl
          (exists_received_firing _ drives) continues internal
          (List.forall_mem_cons.mp meets).2 returned
      refine ⟨action, target, environment, exitEffects, effects, permitted,
        firing, exit_effects exits, settles, ?_, ?_⟩
      · rw [List.flatMap_cons, outputs_eq]
        rfl
      · intro stays
        refine List.forall_mem_cons.mpr ⟨?_, silent stays⟩
        rintro row other taken
        simp at taken

/-- The handler of a packet for which only one row can fire, when the row
leads to a state that waits for an operation. -/
theorem Handles.received_of_only {sender : Endpoint} {datagram : Datagram}
    {history : List Step} {action : Action} {target : State}
    (handles : Handles machine (.received sender datagram) history next)
    (wellFormed : machine.WellFormed config)
    (only : ∀ other state,
      Firing (machine.data.received sender datagram) machine.state
        (some .packetReceived) other state → other = action ∧ state = target)
    (waits : target.operation ≠ none) :
    ∃ environment exitEffects,
      (exitEffects = [] ∨ exitEffects = [.cancelSocket, .cancelTimer]) ∧
      next = Machine.entering target
        (action.run environment (some .packetReceived)
          (machine.data.received sender datagram)).1 ∧
      history.flatMap Transition.outputs = .cancelTimer :: (exitEffects ++
        ((action.run environment (some .packetReceived)
          (machine.data.received sender datagram)).2 ++
            (target.entry (action.run environment (some .packetReceived)
              (machine.data.received sender datagram)).1).2)) := by
  obtain ⟨other, state, environment, exitEffects, effects, _, firing, exits,
    settles, outputs, _⟩ :=
      handles.received (fun _ _ => True) wellFormed (by simp [Step.Meets])
  obtain ⟨rfl, rfl⟩ := only other state firing
  obtain ⟨rfl, rfl⟩ := settles.of_waits waits
  exact ⟨environment, exitEffects, exits, rfl, outputs⟩

/-- A packet for which only a row without action to `WaitingForAck` can fire
is answered by nothing and leaves the file alone. -/
theorem Handles.ignored {sender : Endpoint} {datagram : Datagram}
    {history : List Step}
    (handles : Handles machine (.received sender datagram) history next)
    (wellFormed : machine.WellFormed config)
    (only : ∀ action target,
      Firing (machine.data.received sender datagram) machine.state
        (some .packetReceived) action target →
          action = .none ∧ target = .waitingForAck) :
    next = Machine.entering .waitingForAck
        (machine.data.received sender datagram) ∧
      sentPackets history = [] ∧ writtenBlocks history = [] := by
  obtain ⟨environment, exitEffects, exits, next_eq, outputs⟩ :=
    handles.received_of_only wellFormed only (by simp [State.operation])
  refine ⟨next_eq, ?_, ?_⟩
  · rw [sentPackets, outputs, filterMap_after_exit rfl rfl exits]
    rfl
  · rw [writtenBlocks, outputs, filterMap_after_exit rfl rfl exits]
    rfl

theorem Handles.refused {sender : Endpoint} {datagram : Datagram}
    {history : List Step}
    (handles : Handles machine (.received sender datagram) history next)
    (wellFormed : machine.WellFormed config)
    (only : ∀ action target,
      Firing (machine.data.received sender datagram) machine.state
        (some .packetReceived) action target →
          action = .formProtocolErrorPacket ∧ target = .sendingError) :
    sentPackets history =
      [(Packet.errorPacket ErrorCode.illegalTftpOperation.value,
        machine.data.agreedRemoteEndpoint)] := by
  obtain ⟨environment, exitEffects, exits, _, outputs⟩ :=
    handles.received_of_only wellFormed only (by simp [State.operation])
  have formed : (formProtocolErrorPacket
      (machine.data.received sender datagram)).outgoing =
        Packet.errorPacket ErrorCode.illegalTftpOperation.value :=
    outgoing_formErrorPacketWith _
  rw [sentPackets, outputs, filterMap_after_exit rfl rfl exits]
  simp only [Action.run, State.entry, enterSending, formed]
  rfl

theorem Answers.exists_handles {completion : Completion}
    {effects : List Effect}
    (answers : Answers allowed machine completion effects next)
    (returned : machine.returned = true)
    (outstanding : machine.outstanding = [completion.operation]) :
    ∃ history, Handles machine completion history next ∧
      history.flatMap Transition.outputs = effects ∧
        ∀ step ∈ history, Step.Meets step allowed := by
  cases answers with
  | @event event action target environment exitEffects effects next permitted
      raises firing exits settles =>
      obtain ⟨settled, idle⟩ := returned_iff.mp returned
      obtain ⟨rest, run, internal, meets, returns, effects_eq⟩ :=
        settles.exists_run
      have started : machine.step (.complete completion) =
          some ({ machine with
            data := (completion.start machine.data).1
            tasks := (completion.start machine.data).2.1
            outstanding := [] }, (completion.start machine.data).2.2) := by
        simp [Machine.step, returned, outstanding]
      obtain ⟨row, rfl, fired⟩ := exists_step_of_firing
        { machine with
          data := (completion.start machine.data).1
          tasks := (completion.start machine.data).2.1
          outstanding := [] } environment (some event)
        (fun _ => settled_iff.mpr settled) raises rfl firing exits
      refine ⟨⟨machine, .complete completion, _, _⟩ ::
          ⟨_, .fire row environment, _, _⟩ :: rest,
        ⟨_, _, rfl, rfl, ?_, ⟨rfl, started, rfl, fired, run⟩, returns⟩, ?_, ?_⟩
      · simp only [List.forall_mem_cons]
        exact ⟨fun completion => by simp, internal⟩
      · simp [effects_eq]
      · simp only [List.forall_mem_cons]
        refine ⟨fun row environment taken => by simp at taken, ?_, meets⟩
        rintro other answers taken
        simp only [Input.fire.injEq] at taken
        obtain ⟨rfl, rfl⟩ := taken
        exact permitted

theorem Machine.WellFormed.exists_received
    (wellFormed : machine.WellFormed config)
    (allowed : Action → Environment → Prop)
    (receives : machine.state.operation = some .receive)
    (idle : machine.tasks = []) {sender : Endpoint} {datagram : Datagram}
    {action : Action} {target : State} (environment : Environment)
    {effects : List Effect} (permitted : allowed action environment)
    (firing : Firing (machine.data.received sender datagram) machine.state
      (some .packetReceived) action target)
    (settles : Settles allowed target
      (action.run environment (some .packetReceived)
        (machine.data.received sender datagram)).1 effects next) :
    ∃ history, Handles machine (.received sender datagram) history next ∧
      history.flatMap Transition.outputs =
        .cancelTimer :: ([.cancelSocket, .cancelTimer] ++
          ((action.run environment (some .packetReceived)
            (machine.data.received sender datagram)).2 ++ effects)) ∧
      ∀ step ∈ history, Step.Meets step allowed := by
  have outstanding : machine.outstanding = [.receive] :=
    wellFormed.outstanding_eq idle receives (by simp)
  have exits : machine.state.exit (machine.data.received sender datagram) =
      some [.cancelSocket, .cancelTimer] := by
    have isOpen : (machine.data.received sender datagram).socketOpen = true :=
      wellFormed.socketOpen receives
    cases state : machine.state <;>
      simp_all [State.operation, State.exit, cancelOperations]
  have answers : Answers allowed machine (.received sender datagram) _ next :=
    .event environment permitted rfl firing exits settles
  have returned : machine.returned = true :=
    returned_iff.mpr ⟨by simp [receives], idle⟩
  exact answers.exists_handles returned outstanding

theorem exists_settles_dataRead (environment : Environment)
    (data : SessionData) :
    ∃ effects next, Settles (fun _ other => other = environment) .dataRead
      data effects next := by
  obtain ⟨action, target, firing⟩ :=
    exists_completion_firing data
      (show State.dataRead.operation = none from rfl)
  have waits : target.operation ≠ none := by
    cases firing <;> simp [State.operation]
  exact ⟨_, _, .passes environment rfl firing (.waits waits)⟩

theorem exists_settles (environment : Environment) (state : State)
    (data : SessionData) :
    ∃ effects next, Settles (fun _ other => other = environment) state data
      effects next := by
  by_cases passes : state.operation = none
  · obtain ⟨action, target, firing⟩ := exists_completion_firing data passes
    by_cases reads : target = .dataRead
    · subst reads
      obtain ⟨effects, next, settles⟩ := exists_settles_dataRead environment
        (action.run environment none data).1
      exact ⟨_, _, .passes environment rfl firing settles⟩
    · have waits : target.operation ≠ none := by
        cases firing <;> simp_all [State.operation]
      exact ⟨_, _, .passes environment rfl firing (.waits waits)⟩
  · exact ⟨_, _, .waits passes⟩

theorem Machine.WellFormed.exists_handles_received
    (wellFormed : machine.WellFormed config)
    (receives : machine.state.operation = some .receive)
    (idle : machine.tasks = []) (sender : Endpoint) (datagram : Datagram)
    (environment : Environment) :
    ∃ history next,
      Handles machine (.received sender datagram) history next ∧
        ∀ step ∈ history,
          Step.Meets step fun _ other => other = environment := by
  obtain ⟨action, target, firing⟩ := exists_received_firing
    (machine.data.received sender datagram) receives
  obtain ⟨effects, next, settles⟩ := exists_settles environment target
    (action.run environment (some .packetReceived)
      (machine.data.received sender datagram)).1
  obtain ⟨history, handles, _, meets⟩ := wellFormed.exists_received _ receives
    idle environment rfl firing settles
  exact ⟨history, next, handles, meets⟩

theorem Machine.WellFormed.exists_sent
    (wellFormed : machine.WellFormed config)
    (allowed : Action → Environment → Prop) {target : State}
    (sends : machine.state.operation = some .send) (idle : machine.tasks = [])
    (isOpen : machine.data.socketOpen = true) (permitted : allowed .none {})
    (firing : Firing machine.data machine.state (some .packetSent) .none
      target)
    (waits : target.operation ≠ none) :
    ∃ history, Handles machine (.sent false) history
        (Machine.entering target machine.data) ∧
      ∀ step ∈ history, Step.Meets step allowed := by
  have exits : machine.state.exit machine.data =
      some [.cancelSocket, .cancelTimer] := by
    cases state : machine.state <;>
      simp_all [State.operation, State.exit, cancelOperations]
  have answers : Answers allowed machine (.sent false) _
      (Machine.entering target machine.data) :=
    .event {} permitted rfl firing exits (.waits waits)
  obtain ⟨history, handles, _, meets⟩ := answers.exists_handles
    (returned_iff.mpr ⟨by simp [sends], idle⟩)
    (wellFormed.outstanding_eq idle sends (by simp [Completion.operation]))
  exact ⟨history, handles, meets⟩

end Correspondence

end MsmTftp
