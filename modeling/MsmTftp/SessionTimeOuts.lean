import MsmTftp.SessionReactor

/-!
# Time-outs of earlier entries

A wait handler that is queued when its waiting state is left runs later, and
cancels whatever the session has started since then.  While no waiting state
is left with its wait handler queued, every time-out belongs to the entry of
the waiting state in which it is processed.
-/

namespace MsmTftp

open CellBuffer CompletionQueue TransitionSystem

/-- The operating system completed the operation of this entry, or the timer
armed on the same entry expired. -/
def Cause.Own (cause : Cause) (entry : Nat) : Prop :=
  cause = .kernel ∨ cause = .expiry entry

/-- No time-out leaks: wait handlers cancel operations of their own entry
only, and so does every time-out that is processed belong to the entry. -/
structure Reactor.OwnTimeOuts (reactor : Reactor) : Prop where
  cancels : ∀ flight ∈ reactor.flights, ∀ completion cause,
    flight.result = some (completion, cause) → cause.Own flight.serial
  timedOut : .process .timedOut ∈ reactor.machine.tasks →
    reactor.cause.Own reactor.entries

/-- A row fires. -/
def Occurrence.fires : Occurrence → Bool
  | proceed (.fire _ _) => true
  | _ => false

/-- The step leaves a waiting state while the wait handler of the timer armed
on its entry is queued for the expiry. -/
def ReactorStep.Overtakes (step : ReactorStep) : Prop :=
  step.before.machine.state.operation = some .receive ∧
    step.input.fires = true ∧
      ∃ wait ∈ step.before.waits, wait.serial = step.before.entries ∧
        wait.result = some .expired

instance (step : ReactorStep) : Decidable step.Overtakes :=
  inferInstanceAs (Decidable (_ ∧ _ ∧ _))

/-- Nothing is in flight but wait handlers of cancelled timers. -/
structure Reactor.Quiet (reactor : Reactor) : Prop where
  flights : reactor.flights = []
  waits : ∀ wait ∈ reactor.waits, wait.result = some .aborted

/-- The invariant: what is in flight, or queued with success, belongs to the
current entry. -/
structure Reactor.Timely (reactor : Reactor) : Prop where
  serial : ∀ flight ∈ reactor.flights, flight.serial = reactor.entries
  own : ∀ flight ∈ reactor.flights, ∀ completion cause,
    flight.result = some (completion, cause) → cause.Own reactor.entries
  waits : ∀ wait ∈ reactor.waits, wait.result = some .aborted ∨
    reactor.machine.state.operation = some .receive ∧
      wait.serial = reactor.entries
  timedOut : .process .timedOut ∈ reactor.machine.tasks →
    reactor.cause.Own reactor.entries

section Effects

variable {reactor : Reactor} {effects : List Effect}

theorem cancelSocket_flights (cause : Cause)
    (flights : reactor.flights = []) :
    (reactor.cancelSocket cause).flights = [] := by
  simp [Reactor.cancelSocket, flights]

theorem cancelSocket_forall (cause : Cause)
    (Invariant : Flight Operation (Completion × Cause) → Prop)
    (before : ∀ flight ∈ reactor.flights, Invariant flight)
    (cancelled : ∀ flight ∈ reactor.flights, Invariant
      { flight with result := some (flight.kind.aborted, cause) }) :
    ∀ flight ∈ (reactor.cancelSocket cause).flights, Invariant flight :=
  cancel_forall Invariant Operation.usesDataSocket
    (fun operation => (operation.aborted, cause)) before
    fun flight member _ _ => cancelled flight member

theorem cancelTimer_forall (Invariant : Flight Nat Wait → Prop)
    (before : ∀ wait ∈ reactor.waits, Invariant wait)
    (cancelled : ∀ wait ∈ reactor.waits,
      Invariant { wait with result := some .aborted }) :
    ∀ wait ∈ reactor.cancelTimer.waits, Invariant wait :=
  cancel_forall Invariant (fun _ => true) (fun _ => .aborted) before
    fun wait member _ _ => cancelled wait member

/-- Cancelling the timer leaves only wait handlers queued as expired and
cancelled ones. -/
theorem cancelTimer_waits
    (unexpired : ∀ wait ∈ reactor.waits, wait.result ≠ some .expired) :
    ∀ wait ∈ reactor.cancelTimer.waits, wait.result = some .aborted := by
  intro wait member
  have queued : wait.result ≠ none :=
    cancel_result_ne_none (fun _ => true) (fun _ => .aborted) member rfl
  have unexpired : wait.result ≠ some .expired :=
    cancelTimer_forall (fun wait => wait.result ≠ some .expired) unexpired
      (by simp) wait member
  match result : wait.result with
  | none => exact absurd result queued
  | some .expired => exact absurd result unexpired
  | some .aborted => rfl

theorem Reactor.Quiet.performAll (quiet : reactor.Quiet)
    (operations : effects.filterMap Effect.operation = [])
    (waits : effects.filterMap Effect.wait = []) :
    (reactor.performAll effects).Quiet := by
  apply performAll_invariant Reactor.Quiet quiet
  intro other effect member quiet
  have starts : effect.operation = none :=
    List.filterMap_eq_nil_iff.mp operations effect member
  have waits : effect.wait = none :=
    List.filterMap_eq_nil_iff.mp waits effect member
  obtain ⟨flights, aborted⟩ := quiet
  cases effect with
  | listenerReceive => simp [Effect.operation] at starts
  | sendTo packet receiver => simp [Effect.operation] at starts
  | receiveFrom => simp [Effect.operation] at starts
  | startTimer duration => simp [Effect.wait] at waits
  | cancelSocket => exact ⟨cancelSocket_flights .session flights, aborted⟩
  | closeSocket => exact ⟨cancelSocket_flights .session flights, aborted⟩
  | cancelTimer =>
      exact ⟨flights, cancelTimer_waits fun wait member => by
        simp [aborted wait member]⟩
  | _ => exact ⟨flights, aborted⟩

/-- Leaving a state quiets the reactor, unless a wait handler is queued. -/
theorem Reactor.Quiet.exit {state : State} {data : SessionData}
    (exits : state.exit data = some effects)
    (flights : reactor.flights = [])
    (unexpired : ∀ wait ∈ reactor.waits, wait.result ≠ some .expired)
    (unarmed : state.operation ≠ some .receive →
      ∀ wait ∈ reactor.waits, wait.result = some .aborted) :
    (reactor.performAll effects).Quiet := by
  rcases exit_effects exits with rfl | rfl
  · refine ⟨flights, unarmed ?_⟩
    cases state <;> simp [State.exit, cancelOperations, State.operation]
      at exits ⊢
  · exact ⟨cancelSocket_flights .session flights,
      cancelTimer_waits unexpired⟩

/-- An entry action starts nothing, one operation, or a receive with its
timer. -/
theorem entry_effects (state : State) (data : SessionData) :
    (state.entry data).2 = [] ∨
      (state.entry data).2 = [.listenerReceive] ∨
        (∃ packet receiver,
          (state.entry data).2 = [.sendTo packet receiver]) ∨
          state.operation = some .receive ∧
            (state.entry data).2 =
              [.receiveFrom, .startTimer data.timeOut] := by
  cases state <;> simp [State.entry, enterAccepting, enterSending,
    enterReceive, State.operation]
  cases data.listenerSocket <;> simp

theorem Reactor.Quiet.launch (quiet : reactor.Quiet)
    (operation : Operation) :
    ∀ flight ∈ (reactor.launch operation).flights,
      flight.serial = (reactor.launch operation).entries ∧
        flight.result = none := by
  simp [Reactor.launch, start, quiet.flights]

theorem Reactor.Quiet.entry (quiet : reactor.Quiet) (state : State)
    (data : SessionData) :
    (∀ flight ∈ (reactor.performAll (state.entry data).2).flights,
      flight.serial = (reactor.performAll (state.entry data).2).entries ∧
        flight.result = none) ∧
      ∀ wait ∈ (reactor.performAll (state.entry data).2).waits,
        wait.result = some .aborted ∨
          state.operation = some .receive ∧
            wait.serial =
              (reactor.performAll (state.entry data).2).entries := by
  have stale (entry : Nat) : ∀ wait ∈ reactor.waits,
      wait.result = some .aborted ∨
        state.operation = some .receive ∧ wait.serial = entry :=
    fun wait member => .inl (quiet.waits wait member)
  rcases entry_effects state data with
    nothing | listens | ⟨packet, receiver, sends⟩ | ⟨waits, receives⟩
  · rw [nothing]
    exact ⟨by simp [Reactor.performAll, quiet.flights], stale _⟩
  · rw [listens]
    exact ⟨quiet.launch .listenerReceive, stale _⟩
  · rw [sends]
    exact ⟨quiet.launch .send, stale _⟩
  · rw [receives]
    have cancelled : ∀ wait ∈ (reactor.launch .receive).cancelTimer.waits,
        wait.result = some .aborted :=
      cancelTimer_waits fun wait member => by
        simp [quiet.waits wait member]
    refine ⟨quiet.launch .receive, start_forall _
      (fun wait member => .inl (cancelled wait member)) (.inr ⟨waits, rfl⟩)⟩

end Effects

section Steps

variable {config : Config} {before after : Reactor}
  {occurrence : Occurrence} {effects : List Effect}

theorem Reactor.started_timely (config : Config) :
    (Reactor.started config).Timely := by
  have quiet : Reactor.Quiet
      { machine := Machine.started config
        flights := []
        waits := []
        entries := 0
        cause := .kernel } :=
    ⟨rfl, by simp⟩
  obtain ⟨launched, armed⟩ :=
    quiet.entry .accepting (SessionData.fresh config)
  refine ⟨fun flight member => (launched flight member).1, ?_, ?_, ?_⟩
  · intro flight member completion cause queued
    rw [(launched flight member).2] at queued
    simp at queued
  · rw [Reactor.started, performAll_machine]
    exact armed
  · rw [Reactor.started, performAll_machine]
    simp [Machine.started]

theorem Reactor.Timely.fire (timely : before.Timely)
    (wellFormed : before.WellFormed config) {row : Row}
    {environment : Environment} {event : Option Event} {next : Machine}
    {exitEffects : List Effect}
    (cases : FireCases before.machine row environment event exitEffects
      effects next)
    (orderly : before.machine.state.operation = some .receive →
      ∀ wait ∈ before.waits, wait.serial = before.entries →
        wait.result ≠ some .expired) :
    (Reactor.performAll { before with machine := next } effects).Timely := by
  have flights : before.flights = [] := by
    have nothing := cases.idle
    rw [← wellFormed.kinds] at nothing
    exact List.map_eq_nil_iff.mp nothing
  have unexpired : ∀ wait ∈ before.waits, wait.result ≠ some .expired := by
    intro wait member expired
    rcases timely.waits wait member with aborted | ⟨waits, current⟩
    · simp [aborted] at expired
    · exact orderly waits wait member current expired
  have unarmed : before.machine.state.operation ≠ some .receive →
      ∀ wait ∈ before.waits, wait.result = some .aborted := by
    intro passes wait member
    rcases timely.waits wait member with aborted | ⟨waits, _⟩
    · exact aborted
    · exact absurd waits passes
  have left : (Reactor.performAll { before with machine := next }
      exitEffects).Quiet :=
    Reactor.Quiet.exit cases.exits flights unexpired unarmed
  have acted : Reactor.Quiet (Reactor.performAll
      (Reactor.performAll { before with machine := next } exitEffects)
      (row.action.run environment event before.machine.data).2) :=
    left.performAll run_operations
      (run_filterMap (fun _ _ => rfl) (fun _ => rfl) rfl rfl rfl)
  have entered := acted.entry row.target
    (row.action.run environment event before.machine.data).1
  rw [← performAll_append, ← performAll_append, ← List.append_assoc,
    ← cases.effects_eq] at entered
  obtain ⟨launched, armed⟩ := entered
  refine ⟨fun flight member => (launched flight member).1, ?_, ?_, ?_⟩
  · intro flight member completion cause queued
    rw [(launched flight member).2] at queued
    simp at queued
  · rw [performAll_machine, cases.state_eq]
    exact armed
  · rw [performAll_machine, cases.tasks_eq]
    simp

theorem Reactor.Timely.handle (timely : before.Timely)
    (wellFormed : before.WellFormed config)
    {flight : Flight Operation (Completion × Cause)}
    {completion : Completion} {cause : Cause} {next : Machine}
    (member : flight ∈ before.flights)
    (queued : flight.result = some (completion, cause))
    (taken : before.machine.step (.complete completion) =
      some (next, effects)) :
    (Reactor.performAll { before with
      machine := next
      flights := remove flight.serial before.flights
      cause } effects).Timely := by
  obtain ⟨_, own, waits, _⟩ := timely
  have nothing : remove flight.serial before.flights = [] := by
    rw [wellFormed.eq_singleton member]
    exact remove_singleton
  have caused := own flight member completion cause queued
  have cancelled : ∀ wait ∈ before.cancelTimer.waits,
      wait.result = some .aborted ∨
        before.machine.state.operation = some .receive ∧
          wait.serial = before.entries :=
    cancelTimer_forall _ waits fun _ _ => .inl rfl
  rw [nothing]
  cases stepCases taken with
  | complete settled idle started =>
      cases completion with
      | received sender datagram =>
          exact ⟨List.forall_mem_nil _, List.forall_mem_nil _, cancelled,
            by simp [Completion.start]⟩
      | receiveFailed =>
          exact ⟨List.forall_mem_nil _, List.forall_mem_nil _, waits,
            fun _ => caused⟩
      | _ =>
          exact ⟨List.forall_mem_nil _, List.forall_mem_nil _, waits,
            by simp [Completion.start]⟩

theorem Reactor.Timely.step (timely : before.Timely)
    (wellFormed : before.WellFormed config)
    (stepped : before.step occurrence = some (after, effects))
    (orderly : ¬ ReactorStep.Overtakes
      ⟨before, occurrence, effects, after⟩) : after.Timely := by
  obtain ⟨serial, own, waits, timedOut⟩ := id timely
  cases reactorCases stepped with
  | arrive awaited =>
      refine ⟨?_, ?_, waits, timedOut⟩
      · exact finish_forall _ serial fun flight member _ _ =>
          serial flight member
      · refine finish_forall _ own fun flight member _ _ completion cause
          queued => ?_
        simp only [Option.some.injEq, Prod.mk.injEq] at queued
        exact .inl queued.2.symm
  | expire armed =>
      refine ⟨serial, own, ?_, timedOut⟩
      apply finish_forall _ waits
      intro wait member pending _
      rcases waits wait member with aborted | current
      · simp [pending] at aborted
      · exact .inr current
  | @wakeExpired wait member expired idle isOpen =>
      have current : wait.serial = before.entries := by
        rcases waits wait member with aborted | ⟨_, current⟩
        · simp [expired] at aborted
        · exact current
      refine ⟨cancelSocket_forall _ _ serial serial,
        cancelSocket_forall _ _ own ?_, remove_forall _ waits, timedOut⟩
      intro flight member completion cause queued
      simp only [Option.some.injEq, Prod.mk.injEq, current] at queued
      exact .inr queued.2.symm
  | wakeAborted member aborted idle =>
      exact ⟨serial, own, remove_forall _ waits, timedOut⟩
  | @handle flight completion cause next _ located queued taken =>
      exact timely.handle wellFormed (lookup_eq_some located).1 queued taken
  | @proceed input next _ internal taken =>
      cases input with
      | complete completion => exact absurd rfl (internal completion)
      | fire row environment =>
          obtain ⟨event, exitEffects, cases⟩ :=
            wellFormed.machine.fireCases taken
          exact timely.fire wellFormed cases fun waits wait member current
            expired => orderly ⟨waits, rfl, wait, member, current, expired⟩
      | parse =>
          cases stepCases taken with
          | parse settled running =>
              refine ⟨serial, own, waits, fun member => timedOut ?_⟩
              rw [running]
              simpa using member
      | reject =>
          cases stepCases taken with
          | reject settled running refused =>
              refine ⟨serial, own, waits, fun member => timedOut ?_⟩
              rw [running]
              exact List.mem_cons_of_mem _ member

end Steps

/-- While no step overtakes a wait handler, no time-out leaks into a later
entry. -/
theorem time_outs_own (config : Config) (history : List ReactorStep)
    (last : Reactor) (run : Reactor.Reaches config history last)
    (orderly : ∀ step ∈ history, ¬ ReactorStep.Overtakes step) :
    last.OwnTimeOuts := by
  have invariant : last.WellFormed config ∧ last.Timely :=
    System.Run.invariant_of run (fun step => ¬ ReactorStep.Overtakes step)
      orderly (fun reactor => reactor.WellFormed config ∧ reactor.Timely)
      ⟨Reactor.started_wellFormed config, Reactor.started_timely config⟩
      fun _ ⟨wellFormed, timely⟩ admitted orderly =>
        ⟨wellFormed.step admitted, timely.step wellFormed admitted orderly⟩
  obtain ⟨serial, own, _, timedOut⟩ := invariant.2
  refine ⟨fun flight member completion cause queued => ?_, timedOut⟩
  rw [serial flight member]
  exact own flight member completion cause queued

section Examples

/-- A time-out that the timer of the current entry causes. -/
theorem first_timeOut_own :
    ∃ history last, Reactor.Reaches .loopback history last ∧
      last.machine.tasks = [.process .timedOut] ∧
        last.cause = .expiry last.entries ∧ last.OwnTimeOuts := by
  obtain ⟨history, last, run, passes⟩ := reactor.exists_run_of_execute
    (Reactor.started .loopback) 7
    (Reactor.script
      [(.arrive 1 (.accepted .client (requestOf .readRequest)), {}),
        (.handle 1, {}), (.arrive 2 (.sent false), {}), (.handle 2, {}),
        (.expire 3, {}), (.wake 3, {}), (.handle 3, {})])
    (fun history last =>
      decide (last.machine.tasks = [.process .timedOut]) &&
        decide (last.cause = .expiry last.entries) &&
          history.all fun step => decide (¬ ReactorStep.Overtakes step))
    (by decide +kernel)
  simp only [Bool.and_eq_true, decide_eq_true_eq, List.all_eq_true]
    at passes
  obtain ⟨⟨timedOut, cause⟩, orderly⟩ := passes
  exact ⟨history, last, run, timedOut, cause,
    time_outs_own .loopback history last run orderly⟩

/-- The timer and an old ACK are queued together.  The ACK is ignored, and the
wait handler cancels the next receive at once. -/
theorem late_wait_leaks :
    ∃ history last, Reactor.Reaches .loopback history last ∧
      last.machine.state = .waitingForAck ∧ ¬ last.OwnTimeOuts := by
  obtain ⟨history, last, run, passes⟩ := reactor.exists_run_of_execute
    (Reactor.started .loopback) 7 (Reactor.script lateWait)
    (fun _ last => decide (last.machine.state = .waitingForAck) &&
      decide (.process .timedOut ∈ last.machine.tasks) &&
        decide (last.cause = .expiry 3) && decide (last.entries = 4))
    (by decide +kernel)
  simp only [Bool.and_eq_true, decide_eq_true_eq] at passes
  obtain ⟨⟨⟨waits, timedOut⟩, cause⟩, entries⟩ := passes
  refine ⟨history, last, run, waits, ?_⟩
  intro own
  have leaks := own.timedOut timedOut
  rw [cause, entries] at leaks
  simp [Cause.Own] at leaks

end Examples

end MsmTftp
