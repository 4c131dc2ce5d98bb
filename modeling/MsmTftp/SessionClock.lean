import MsmTftp.SessionTimeOuts
import MsmTftp.TimedSystem

/-!
# Sessions and the clock

The timer of a session waits on the steady clock.  Handlers take no time here
and a queued handler runs at once, so time passes only while every operation
and every wait is pending, and never beyond the expiry of a pending wait.
`expires_from_now` sets the expiry.
-/

namespace MsmTftp

open CellBuffer CompletionQueue TimedSystem TransitionSystem

/-- Milliseconds in ticks of `std::chrono::steady_clock`, which are
nanoseconds. -/
def ticks (milliseconds : Nat) : Nat :=
  milliseconds * 1000000

namespace Reactor

/-- No handler runs and none is queued. -/
def rests (reactor : Reactor) : Bool :=
  reactor.machine.returned &&
    reactor.flights.all (fun flight => flight.result.isNone) &&
      reactor.waits.all fun wait => wait.result.isNone

/-- A wait of the timer is pending. -/
def armed (reactor : Reactor) : Bool :=
  reactor.waits.any fun wait => wait.result.isNone

end Reactor

/-- The occurrence is the expiry of the timer. -/
def Occurrence.expires : Occurrence → Bool
  | expire _ => true
  | _ => false

/-- How a session uses the clock. -/
def reactorTiming : Timing Reactor Occurrence Effect where
  rests := Reactor.rests
  runs := Reactor.armed
  duration effect := effect.wait.map ticks
  expires := Occurrence.expires

abbrev TimedReactor := Timed Reactor

/-- A session with its handlers and the clock. -/
def timedReactor :
    System TimedReactor (TimedInput Occurrence) Effect :=
  timed reactor reactorTiming

abbrev TimedStep := Transition TimedReactor (TimedInput Occurrence) Effect

/-- A session that is started at time zero. -/
def TimedReactor.started (config : Config) : TimedReactor where
  state := Reactor.started config
  now := 0
  expiry := 0

/-- Runs of a session against the clock from its start. -/
def TimedReactor.Reaches (config : Config) (history : List TimedStep)
    (last : TimedReactor) : Prop :=
  timedReactor.Run (TimedReactor.started config) history last

/-- What waits are left when a row fires, before its target is entered. -/
structure Reactor.Halted (before reactor : Reactor) : Prop where
  flights : reactor.flights = []
  entries : reactor.entries = before.entries
  waits : ∀ wait ∈ reactor.waits, wait.result ≠ none ∧
    wait.serial ≤ before.entries ∧
      (wait.result = some .expired → wait ∈ before.waits)

/-- What is in flight when a row has fired: what its target starts, and wait
handlers that were queued before. -/
structure Reactor.Fired (before after : Reactor) (target : State) : Prop where
  flights : ∀ flight ∈ after.flights, flight.result = none
  later : before.entries ≤ after.entries
  waits : ∀ wait ∈ after.waits,
    target.operation = some .receive ∧ wait.result = none ∧
        wait.serial = after.entries ∨
      wait.result ≠ none ∧ wait.serial ≤ before.entries ∧
        (wait.result = some .expired → wait ∈ before.waits)
  arms : target.operation = some .receive →
    before.entries < after.entries ∧
      ∃ wait ∈ after.waits, wait.result = none

/-- A wait is pending in the waiting state that armed it only, and a waiting
state has its timer armed until its receive is over. -/
structure Reactor.Clocked (reactor : Reactor) : Prop where
  serial : ∀ wait ∈ reactor.waits, wait.serial ≤ reactor.entries
  pending : ∀ wait ∈ reactor.waits, wait.result = none →
    reactor.machine.state.operation = some .receive ∧
      wait.serial = reactor.entries
  armed : reactor.machine.state.operation = some .receive →
    reactor.machine.tasks = [] →
      (∃ wait ∈ reactor.waits, wait.result ≠ some .aborted) ∨
        ∀ flight ∈ reactor.flights, flight.result ≠ none

section Entering

variable {before reactor : Reactor} {effects : List Effect}

theorem Reactor.Halted.performAll (halted : before.Halted reactor)
    (operations : effects.filterMap Effect.operation = [])
    (waits : effects.filterMap Effect.wait = []) :
    before.Halted (reactor.performAll effects) := by
  apply performAll_invariant before.Halted halted
  intro other effect member halted
  have starts : effect.operation = none :=
    List.filterMap_eq_nil_iff.mp operations effect member
  have waits : effect.wait = none :=
    List.filterMap_eq_nil_iff.mp waits effect member
  obtain ⟨flights, entries, queued⟩ := halted
  cases effect with
  | listenerReceive => simp [Effect.operation] at starts
  | sendTo packet receiver => simp [Effect.operation] at starts
  | receiveFrom => simp [Effect.operation] at starts
  | startTimer duration => simp [Effect.wait] at waits
  | cancelSocket =>
      exact ⟨cancelSocket_flights .session flights, entries, queued⟩
  | closeSocket =>
      exact ⟨cancelSocket_flights .session flights, entries, queued⟩
  | cancelTimer =>
      refine ⟨flights, entries, cancelTimer_forall _ queued ?_⟩
      intro wait inside
      exact ⟨by simp, (queued wait inside).2.1, by simp⟩
  | _ => exact ⟨flights, entries, queued⟩

/-- Leaving a state halts the session. -/
theorem Reactor.Halted.exit {state : State} {data : SessionData}
    (exits : state.exit data = some effects)
    (flights : before.flights = [])
    (serial : ∀ wait ∈ before.waits, wait.serial ≤ before.entries)
    (pending : ∀ wait ∈ before.waits, wait.result = none →
      state.operation = some .receive) :
    before.Halted (before.performAll effects) := by
  rcases exit_effects exits with rfl | rfl
  · refine ⟨flights, rfl, fun wait member => ⟨?_, serial wait member, ?_⟩⟩
    · intro waits
      have receives := pending wait member waits
      cases state <;> simp [State.exit, cancelOperations, State.operation]
        at exits receives
    · exact fun _ => member
  · refine ⟨cancelSocket_flights .session flights, rfl, ?_⟩
    intro wait member
    have queued : wait.result ≠ none :=
      cancel_result_ne_none (fun _ => true) (fun _ => .aborted) member rfl
    have kept : wait.serial ≤ before.entries ∧
        (wait.result = some .expired → wait ∈ before.waits) :=
      cancelTimer_forall
        (fun wait => wait.serial ≤ before.entries ∧
          (wait.result = some .expired → wait ∈ before.waits))
        (fun wait inside => ⟨serial wait inside, fun _ => inside⟩)
        (fun wait inside => ⟨serial wait inside, by simp⟩) wait member
    exact ⟨queued, kept⟩

theorem Reactor.Halted.unarmed (halted : before.Halted reactor)
    {target : State} {after : Reactor}
    (other : target.operation ≠ some .receive)
    (flights : ∀ flight ∈ after.flights, flight.result = none)
    (later : before.entries ≤ after.entries)
    (waits : after.waits = reactor.waits) : before.Fired after target := by
  refine ⟨flights, later, ?_, fun receives => absurd receives other⟩
  rw [waits]
  exact fun wait member => .inr (halted.waits wait member)

theorem Reactor.Halted.entry (halted : before.Halted reactor)
    (target : State) (data : SessionData) :
    before.Fired (reactor.performAll (target.entry data).2) target := by
  have launched (operation : Operation) :
      ∀ flight ∈ (reactor.launch operation).flights,
        flight.result = none := by
    simp [Reactor.launch, start, halted.flights]
  have later : before.entries < reactor.entries + 1 := by
    rw [halted.entries]
    exact Nat.lt_succ_self _
  by_cases waits : target.operation = some .receive
  · have receives : (target.entry data).2 =
        [.receiveFrom, .startTimer data.timeOut] := by
      cases target <;> simp [State.operation] at waits <;> rfl
    rw [receives]
    have old : ∀ wait ∈ (reactor.launch .receive).cancelTimer.waits,
        wait.result ≠ none ∧ wait.serial ≤ before.entries ∧
          (wait.result = some .expired → wait ∈ before.waits) :=
      cancelTimer_forall _ halted.waits fun wait inside =>
        ⟨by simp, (halted.waits wait inside).2.1, by simp⟩
    refine ⟨launched .receive, Nat.le_of_lt later, ?_, fun _ => ⟨later, ?_⟩⟩
    · exact start_forall _ (fun wait member => .inr (old wait member))
        (.inl ⟨waits, rfl, rfl⟩)
    · exact ⟨_, List.mem_append_right _ (List.mem_singleton_self _), rfl⟩
  · rcases entry_effects target data with
      nothing | listens | ⟨packet, receiver, sends⟩ | ⟨receives, _⟩
    · rw [nothing]
      exact halted.unarmed waits (by simp [Reactor.performAll, halted.flights])
        (Nat.le_of_eq halted.entries.symm) rfl
    · rw [listens]
      exact halted.unarmed waits (launched .listenerReceive)
        (Nat.le_of_lt later) rfl
    · rw [sends]
      exact halted.unarmed waits (launched .send) (Nat.le_of_lt later) rfl
    · exact absurd receives waits

theorem Reactor.Clocked.fired {config : Config} (clocked : before.Clocked)
    (wellFormed : before.WellFormed config) {row : Row}
    {environment : Environment} {event : Option Event} {next : Machine}
    {exitEffects : List Effect}
    (cases : FireCases before.machine row environment event exitEffects
      effects next) :
    before.Fired (Reactor.performAll { before with machine := next } effects)
      row.target := by
  have flights : before.flights = [] := by
    have nothing := cases.idle
    rw [← wellFormed.kinds] at nothing
    exact List.map_eq_nil_iff.mp nothing
  have left : Reactor.Halted { before with machine := next }
      (Reactor.performAll { before with machine := next } exitEffects) :=
    Reactor.Halted.exit cases.exits flights clocked.serial
      fun wait member waits => (clocked.pending wait member waits).1
  have unarmed :
      (row.action.run environment event before.machine.data).2.filterMap
        Effect.wait = [] :=
    run_filterMap (fun _ _ => rfl) (fun _ => rfl) rfl rfl rfl
  have acted := left.performAll run_operations unarmed
  have entered := acted.entry row.target
    (row.action.run environment event before.machine.data).1
  rw [← performAll_append, ← performAll_append, ← List.append_assoc,
    ← cases.effects_eq] at entered
  obtain ⟨launched, later, waits, arms⟩ := entered
  exact ⟨launched, later, waits, arms⟩

end Entering

section Steps

variable {config : Config} {before after : Reactor}
  {occurrence : Occurrence} {effects : List Effect}

/-- A wait handler cancels the receive, or it is that of a cancelled wait and
leaves everything else alone. -/
theorem flights_of_wake {serial : Nat}
    (stepped : before.step (.wake serial) = some (after, effects)) :
    after.flights = (before.cancelSocket (.expiry serial)).flights ∨
      after.flights = before.flights ∧ ∀ wait ∈ before.waits,
        wait.result ≠ some .aborted → wait ∈ after.waits := by
  simp only [Reactor.step, Option.ite_none_right_eq_some] at stepped
  obtain ⟨_, stepped⟩ := stepped
  split at stepped
  · simp only [Option.ite_none_right_eq_some, Option.some.injEq,
      Prod.mk.injEq] at stepped
    obtain ⟨_, rfl, _⟩ := stepped
    exact .inl rfl
  · rename_i found
    obtain ⟨located, searched, aborted⟩ := Option.bind_eq_some_iff.mp found
    simp only [Option.some.injEq, Prod.mk.injEq] at stepped
    obtain ⟨rfl, _⟩ := stepped
    right
    refine ⟨rfl, ?_⟩
    intro wait member other
    apply mem_remove_of_ne searched member
    rintro rfl
    exact other aborted
  · simp at stepped

/-- In a waiting state between two handlers the receive is in flight. -/
theorem Reactor.WellFormed.exists_receive
    (wellFormed : before.WellFormed config)
    (waits : before.machine.state.operation = some .receive)
    (idle : before.machine.tasks = []) :
    ∃ flight, before.flights = [flight] ∧ flight.kind = .receive := by
  have shape := wellFormed.machine.shape
  have kinds := wellFormed.kinds
  rw [idle] at shape
  generalize before.machine.state = state at shape waits
  generalize before.machine.outstanding = outstanding at shape kinds
  cases shape with
  | waiting drives =>
      obtain rfl := Option.some.inj (drives.symm.trans waits)
      exact List.map_eq_singleton_iff.mp kinds
  | stuck => simp [State.operation] at waits
  | passing passes => simp [passes] at waits

theorem Reactor.WellFormed.kind_eq_receive
    (wellFormed : before.WellFormed config)
    (waits : before.machine.state.operation = some .receive)
    (idle : before.machine.tasks = [])
    {flight : Flight Operation (Completion × Cause)}
    (member : flight ∈ before.flights) : flight.kind = .receive := by
  obtain ⟨only, flights, receives⟩ := wellFormed.exists_receive waits idle
  rw [flights, List.mem_singleton] at member
  rw [member, receives]

theorem cancelSocket_result_ne_none {cause : Cause}
    {flight : Flight Operation (Completion × Cause)}
    (member : flight ∈ (before.cancelSocket cause).flights)
    (receives : flight.kind = .receive) : flight.result ≠ none :=
  cancel_result_ne_none Operation.usesDataSocket
    (fun operation => (operation.aborted, cause)) member
    (by rw [receives]; rfl)

theorem exists_finish_expired {serial : Nat} {waits : List (Flight Nat Wait)}
    (armed : ∃ wait ∈ waits, wait.result ≠ some .aborted) :
    ∃ wait ∈ finish serial .expired waits, wait.result ≠ some .aborted := by
  obtain ⟨wait, member, current⟩ := armed
  refine ⟨_, List.mem_map_of_mem member, ?_⟩
  cases result : wait.result with
  | some verdict => simpa [result] using current
  | none =>
      by_cases same : wait.serial = serial <;> simp [same]

theorem finish_result_ne_none {Kind Result : Type*} {serial : Nat}
    {result : Result} {flights : List (Flight Kind Result)}
    (queued : ∀ flight ∈ flights, flight.result ≠ none) :
    ∀ flight ∈ finish serial result flights, flight.result ≠ none :=
  finish_forall _ queued fun _ _ _ _ => by simp

theorem Reactor.started_clocked (config : Config) :
    (Reactor.started config).Clocked := by
  have halted : Reactor.Halted
      { machine := Machine.started config
        flights := []
        waits := []
        entries := 0
        cause := .kernel }
      { machine := Machine.started config
        flights := []
        waits := []
        entries := 0
        cause := .kernel } :=
    ⟨rfl, rfl, by simp⟩
  obtain ⟨launched, later, waits, _⟩ :=
    halted.entry .accepting (SessionData.fresh config)
  have none (wait : Flight Nat Wait)
      (member : wait ∈ (Reactor.started config).waits) : False := by
    rcases waits wait member with ⟨receives, _⟩ | ⟨queued, _, _⟩
    · simp [State.operation] at receives
    · cases listens : config.listenerSocket <;>
        simp [Reactor.started, Reactor.performAll, State.entry,
          enterAccepting, SessionData.fresh, listens, Reactor.perform,
          Reactor.launch] at member
  have accepts : (Reactor.started config).machine.state = .accepting := by
    rw [Reactor.started, performAll_machine]
    rfl
  refine ⟨fun wait member => (none wait member).elim,
    fun wait member => (none wait member).elim, ?_⟩
  intro receives
  simp [accepts, State.operation] at receives

theorem Reactor.Clocked.handle {flights : List
      (Flight Operation (Completion × Cause))} {completion : Completion}
    {cause : Cause} {next : Machine} (clocked : before.Clocked)
    (taken : before.machine.step (.complete completion) =
      some (next, effects)) :
    (Reactor.performAll { before with
      machine := next
      flights
      cause } effects).Clocked := by
  obtain ⟨serial, pending, armed⟩ := id clocked
  have cancelled : ∀ wait ∈ before.cancelTimer.waits,
      wait.serial ≤ before.entries ∧ wait.result ≠ none := by
    intro wait member
    exact ⟨cancelTimer_forall (fun wait => wait.serial ≤ before.entries)
      serial serial wait member,
      cancel_result_ne_none (fun _ => true) (fun _ => .aborted) member rfl⟩
  cases stepCases taken with
  | complete settled idle started =>
      cases completion with
      | received sender datagram =>
          refine ⟨fun wait member => (cancelled wait member).1,
            fun wait member waits =>
              absurd waits (cancelled wait member).2, ?_⟩
          intro _ idle
          simp [Completion.start] at idle
      | _ =>
          refine ⟨serial, pending, ?_⟩
          intro _ idle
          simp [Completion.start] at idle

/-- A row that fires arms the timer of a waiting state. -/
theorem Reactor.Clocked.fire {row : Row} {environment : Environment}
    {event : Option Event} {next : Machine} {exitEffects : List Effect}
    (clocked : before.Clocked) (wellFormed : before.WellFormed config)
    (cases : FireCases before.machine row environment event exitEffects
      effects next) :
    (Reactor.performAll { before with machine := next } effects).Clocked := by
  obtain ⟨launched, later, waits, arms⟩ := clocked.fired wellFormed cases
  refine ⟨?_, ?_, ?_⟩
  · intro wait member
    rcases waits wait member with ⟨_, _, current⟩ | ⟨_, old, _⟩
    · exact Nat.le_of_eq current
    · exact Nat.le_trans old later
  · rw [performAll_machine, cases.state_eq]
    intro wait member nothing
    rcases waits wait member with ⟨receives, _, current⟩ | ⟨queued, _⟩
    · exact ⟨receives, current⟩
    · exact absurd nothing queued
  · rw [performAll_machine, cases.state_eq]
    intro receives _
    obtain ⟨wait, member, nothing⟩ := (arms receives).2
    exact .inl ⟨wait, member, by simp [nothing]⟩

theorem Reactor.Clocked.step (clocked : before.Clocked)
    (wellFormed : before.WellFormed config)
    (stepped : before.step occurrence = some (after, effects)) :
    after.Clocked := by
  obtain ⟨serial, pending, armed⟩ := id clocked
  have formed := wellFormed.step stepped
  cases reactorCases stepped with
  | arrive awaited =>
      refine ⟨serial, pending, ?_⟩
      intro waits idle
      rcases armed waits idle with current | queued
      · exact .inl current
      · exact .inr (finish_result_ne_none queued)
  | expire expected =>
      refine ⟨?_, ?_, fun waits idle => ?_⟩
      · exact finish_forall _ serial fun wait member _ _ =>
          serial wait member
      · exact finish_forall _ pending fun wait member _ _ => by simp
      · rcases armed waits idle with current | queued
        · exact .inl (exists_finish_expired current)
        · exact .inr queued
  | wakeExpired member expired idle isOpen =>
      refine ⟨remove_forall _ serial, remove_forall _ pending,
        fun waits idle => .inr ?_⟩
      intro flight inside
      have receives := formed.kind_eq_receive waits idle inside
      exact cancelSocket_result_ne_none inside receives
  | wakeAborted member aborted idle =>
      refine ⟨remove_forall _ serial, remove_forall _ pending, ?_⟩
      intro waits idle
      rcases flights_of_wake stepped with cancelled | ⟨same, kept⟩
      · right
        intro flight inside
        have receives := formed.kind_eq_receive waits idle inside
        rw [cancelled] at inside
        exact cancelSocket_result_ne_none inside receives
      · rcases armed waits idle with ⟨wait, inside, current⟩ | queued
        · exact .inl ⟨wait, kept wait inside current, current⟩
        · exact .inr queued
  | handle located queued taken => exact clocked.handle taken
  | @proceed input next _ internal taken =>
      cases input with
      | complete completion => exact absurd rfl (internal completion)
      | fire row environment =>
          obtain ⟨event, exitEffects, cases⟩ :=
            wellFormed.machine.fireCases taken
          exact clocked.fire wellFormed cases
      | parse =>
          have accepts := wellFormed.machine.accepting_of_parse taken
          cases stepCases taken with
          | parse settled running =>
              refine ⟨serial, pending, ?_⟩
              intro waits
              simp [Reactor.performAll, accepts, State.operation] at waits
      | reject =>
          have accepts := wellFormed.machine.accepting_of_reject taken
          cases stepCases taken with
          | reject settled running refused =>
              refine ⟨serial, pending, ?_⟩
              intro waits
              simp [Reactor.performAll, accepts, State.operation] at waits

/-- What a session with its handlers keeps, with or without a clock. -/
structure Reactor.Sound (config : Config) (reactor : Reactor) : Prop where
  wellFormed : reactor.WellFormed config
  clocked : reactor.Clocked

theorem Reactor.started_sound (config : Config) :
    (Reactor.started config).Sound config :=
  ⟨Reactor.started_wellFormed config, Reactor.started_clocked config⟩

theorem Reactor.Sound.step (sound : before.Sound config)
    (stepped : before.step occurrence = some (after, effects)) :
    after.Sound config :=
  ⟨sound.wellFormed.step stepped,
    sound.clocked.step sound.wellFormed stepped⟩

end Steps

end MsmTftp
