import MsmTftp.SessionClock
import MsmTftp.SessionForgetting
import MsmTftp.SessionRole

/-!
# When a session times out

Every entry of a waiting state sets the expiry of the timer anew, and a packet
that is ignored leads into a waiting state again.  So the deadline of the
packet sent last moves with every ignored packet, and a session without
progress is reset within four time-outs of the last one.
-/

namespace MsmTftp

open CellBuffer CompletionQueue TimedSystem TransitionSystem

/-- The invariant against the clock: a waiting state is left in time, and what
the timer of the current entry causes happens exactly at its expiry. -/
structure TimedReactor.OnTime (timed : TimedReactor) : Prop where
  window : timed.state.machine.state.operation = some .receive →
    timed.now ≤ timed.expiry ∧
      timed.expiry ≤ timed.now + ticks timed.state.machine.data.timeOut
  expired : ∀ wait ∈ timed.state.waits, wait.serial = timed.state.entries →
    wait.result = some .expired → timed.now = timed.expiry
  cancelled : ∀ flight ∈ timed.state.flights, ∀ completion,
    flight.result = some (completion, .expiry timed.state.entries) →
      timed.now = timed.expiry
  timedOut : .process .timedOut ∈ timed.state.machine.tasks →
    timed.state.cause = .expiry timed.state.entries →
      timed.now = timed.expiry

section Expiries

variable {before after : Reactor} {occurrence : Occurrence}
  {effects : List Effect} {now expiry : Nat}

theorem entry_durations (target : State) (data : SessionData) :
    (target.entry data).2.filterMap reactorTiming.duration =
      if target.operation = some .receive then [ticks data.timeOut]
      else [] := by
  cases target with
  | accepting =>
      cases listens : data.listenerSocket <;>
        simp [State.entry, enterAccepting, listens, State.operation,
          reactorTiming, Effect.wait]
  | _ =>
      simp [State.entry, enterSending, enterReceive, State.operation,
        reactorTiming, Effect.wait]

theorem set_of_fire {machine next : Machine} {row : Row}
    {environment : Environment} {event : Option Event}
    {exitEffects : List Effect}
    (cases : FireCases machine row environment event exitEffects effects
      next) :
    reactorTiming.set now expiry effects =
      if row.target.operation = some .receive then
        now + ticks next.data.timeOut
      else expiry := by
  have silentExit : exitEffects.filterMap reactorTiming.duration = [] := by
    rcases exit_effects cases.exits with rfl | rfl <;> rfl
  have silentAction :
      (row.action.run environment event machine.data).2.filterMap
        reactorTiming.duration = [] :=
    run_filterMap (fun _ _ => rfl) (fun _ => rfl) rfl rfl rfl
  have durations : effects.filterMap reactorTiming.duration =
      if row.target.operation = some .receive then
        [ticks (row.action.run environment event machine.data).1.timeOut]
      else [] := by
    rw [cases.effects_eq, List.filterMap_append, List.filterMap_append,
      silentExit, silentAction, entry_durations]
    rfl
  split at durations
  · rename_i waits
    have other : row.target ≠ .accepting := by
      intro accepts
      simp [accepts, State.operation] at waits
    rw [Timing.set_of_armed durations, if_pos waits, cases.data_eq other]
  · rename_i other
    rw [Timing.set_of_silent durations, if_neg other]

theorem set_of_other (stepped : before.step occurrence = some (after, effects))
    (other : occurrence.fires = false) :
    reactorTiming.set now expiry effects = expiry := by
  apply Timing.set_of_silent
  cases reactorCases stepped with
  | @handle flight completion cause next _ located queued taken =>
      cases stepCases taken with
      | complete settled idle started => cases completion <;> rfl
  | @proceed input next _ internal taken =>
      cases stepCases taken with
      | complete settled idle started => exact absurd rfl (internal _)
      | fire settled running firing exits acts enters allEffects =>
          simp [Occurrence.fires] at other
      | _ => rfl
  | _ => rfl

end Expiries

section Resting

variable {config : Config} {reactor : Reactor}

theorem rests_iff :
    reactor.rests = true ↔ reactor.machine.returned = true ∧
      (∀ flight ∈ reactor.flights, flight.result = none) ∧
        ∀ wait ∈ reactor.waits, wait.result = none := by
  simp [Reactor.rests, and_assoc]

/-- While a waiting state rests, its timer runs. -/
theorem Reactor.Sound.armed (sound : reactor.Sound config)
    (waits : reactor.machine.state.operation = some .receive)
    (rests : reactor.rests = true) :
    ∃ wait ∈ reactor.waits, wait.result = none ∧
      wait.serial = reactor.entries := by
  obtain ⟨returned, flying, waiting⟩ := rests_iff.mp rests
  have idle := (returned_iff.mp returned).2
  rcases sound.clocked.armed waits idle with ⟨wait, member, _⟩ | queued
  · have pending := waiting wait member
    exact ⟨wait, member, pending,
      (sound.clocked.pending wait member pending).2⟩
  · obtain ⟨flight, flights, _⟩ :=
      sound.wellFormed.exists_receive waits idle
    have member : flight ∈ reactor.flights := by
      rw [flights]
      exact List.mem_singleton_self flight
    exact absurd (flying flight member) (queued flight member)

theorem armed_of_mem {wait : Flight Nat Wait} (member : wait ∈ reactor.waits)
    (pending : wait.result = none) : reactor.armed = true :=
  List.any_eq_true.mpr ⟨wait, member, by simp [pending]⟩

end Resting

section Invariant

variable {config : Config} {timed : TimedReactor} {after : Reactor}
  {occurrence : Occurrence} {effects : List Effect}

theorem TimedReactor.started_onTime (config : Config) :
    (TimedReactor.started config).OnTime := by
  have accepts : (TimedReactor.started config).state.machine.state =
      .accepting := by
    rw [TimedReactor.started, Reactor.started, performAll_machine]
    rfl
  refine ⟨fun waits => ?_, fun _ _ _ _ => rfl, fun _ _ _ _ => rfl,
    fun _ _ => rfl⟩
  simp [accepts, State.operation] at waits

/-- Time passes up to the expiry of a waiting state at most. -/
theorem TimedReactor.OnTime.pass {delay : Nat} (onTime : timed.OnTime)
    (sound : timed.state.Sound config) (rests : timed.state.rests = true)
    (punctual : timed.state.armed = true →
      timed.now + delay ≤ timed.expiry) :
    TimedReactor.OnTime { timed with now := timed.now + delay } := by
  obtain ⟨returned, flying, waiting⟩ := rests_iff.mp rests
  have idle := (returned_iff.mp returned).2
  refine ⟨fun waits => ?_, ?_, ?_, ?_⟩
  · obtain ⟨wait, member, pending, _⟩ := sound.armed waits rests
    have late := punctual (armed_of_mem member pending)
    have early := (onTime.window waits).2
    exact ⟨late, Nat.le_trans early
      (Nat.add_le_add_right (Nat.le_add_right _ _) _)⟩
  · intro wait member _ expired
    simp [waiting wait member] at expired
  · intro flight member completion cancelled
    simp [flying flight member] at cancelled
  · intro running
    simp [idle] at running

theorem TimedReactor.OnTime.eq_expiry (onTime : timed.OnTime)
    (clocked : timed.state.Clocked) {wait : Flight Nat Wait}
    (member : wait ∈ timed.state.waits) (pending : wait.result = none)
    (due : timed.expiry ≤ timed.now) : timed.now = timed.expiry := by
  have waits := (clocked.pending wait member pending).1
  exact Nat.le_antisymm (onTime.window waits).1 due

theorem TimedReactor.OnTime.handle {completion : Completion} {cause : Cause}
    {next : Machine} (onTime : timed.OnTime)
    (caused : cause = .expiry timed.state.entries → timed.now = timed.expiry)
    (taken : timed.state.machine.step (.complete completion) =
      some (next, effects)) :
    TimedReactor.OnTime
      ⟨Reactor.performAll { timed.state with
          machine := next
          flights := []
          cause } effects, timed.now, timed.expiry⟩ := by
  obtain ⟨window, expired, cancelled, timedOut⟩ := onTime
  have aborted : ∀ wait ∈ timed.state.cancelTimer.waits,
      wait.serial = timed.state.entries →
        wait.result = some .expired → timed.now = timed.expiry :=
    cancelTimer_forall _ expired fun _ _ => by simp
  cases stepCases taken with
  | complete settled idle started =>
      cases completion with
      | received sender datagram =>
          exact ⟨window, aborted, List.forall_mem_nil _,
            by simp [Completion.start, Reactor.performAll,
              Reactor.perform, Reactor.cancelTimer]⟩
      | _ => exact ⟨window, expired, List.forall_mem_nil _, fun _ => caused⟩

theorem TimedReactor.OnTime.other (onTime : timed.OnTime)
    (sound : timed.state.Sound config)
    (due : occurrence.expires = true → timed.expiry ≤ timed.now)
    (stepped : timed.state.step occurrence = some (after, effects))
    (other : occurrence.fires = false) :
    TimedReactor.OnTime ⟨after, timed.now, timed.expiry⟩ := by
  obtain ⟨window, expired, cancelled, timedOut⟩ := id onTime
  cases reactorCases stepped with
  | arrive awaited =>
      refine ⟨window, expired, ?_, timedOut⟩
      apply finish_forall _ cancelled
      intro flight member _ _ completion queued
      simp at queued
  | expire armed =>
      refine ⟨window, ?_, cancelled, timedOut⟩
      apply finish_forall _ expired
      intro wait member pending _ _ _
      exact onTime.eq_expiry sound.clocked member pending (due rfl)
  | @wakeExpired wait member wakes idle isOpen =>
      refine ⟨window, remove_forall _ expired, ?_, timedOut⟩
      apply cancelSocket_forall _ _ cancelled
      intro flight _ completion queued
      simp only [Option.some.injEq, Prod.mk.injEq, Cause.expiry.injEq]
        at queued
      exact expired wait member queued.2 wakes
  | wakeAborted member aborted idle =>
      exact ⟨window, remove_forall _ expired, cancelled, timedOut⟩
  | @handle flight completion cause next _ located queued taken =>
      have member := (lookup_eq_some located).1
      rw [sound.wellFormed.eq_singleton member, remove_singleton]
      apply onTime.handle ?_ taken
      rintro rfl
      exact cancelled flight member completion queued
  | @proceed input next _ internal taken =>
      cases stepCases taken with
      | complete settled idle started => exact absurd rfl (internal _)
      | fire settled running firing exits acts enters allEffects =>
          simp [Occurrence.fires] at other
      | parse settled running =>
          refine ⟨window, expired, cancelled, fun member => timedOut ?_⟩
          rw [running]
          simpa [Reactor.performAll] using member
      | reject settled running refused =>
          refine ⟨window, expired, cancelled, fun member => timedOut ?_⟩
          rw [running]
          exact List.mem_cons_of_mem _ (by simpa using member)

theorem TimedReactor.OnTime.fire (onTime : timed.OnTime)
    (sound : timed.state.Sound config) {row : Row}
    {environment : Environment} {event : Option Event} {next : Machine}
    {exitEffects : List Effect}
    (cases : FireCases timed.state.machine row environment event exitEffects
      effects next) :
    TimedReactor.OnTime
      ⟨Reactor.performAll { timed.state with machine := next } effects,
        timed.now, reactorTiming.set timed.now timed.expiry effects⟩ := by
  obtain ⟨launched, later, waits, arms⟩ :=
    sound.clocked.fired sound.wellFormed cases
  have set : reactorTiming.set timed.now timed.expiry effects = _ :=
    set_of_fire cases
  refine ⟨?_, ?_, ?_, ?_⟩
  · intro receives
    simp only [performAll_machine, cases.state_eq] at receives ⊢
    rw [set, if_pos receives]
    exact ⟨Nat.le_add_right _ _, Nat.le_refl _⟩
  · intro wait member current expired
    simp only at current ⊢
    rcases waits wait member with ⟨_, pending, _⟩ | ⟨_, old, queued⟩
    · simp [pending] at expired
    · -- A handler of this entry was queued before, so no wait was armed.
      have same : wait.serial = timed.state.entries := by omega
      have unarmed : row.target.operation ≠ some .receive := by
        intro receives
        have strict := (arms receives).1
        omega
      rw [set, if_neg unarmed]
      exact onTime.expired wait (queued expired) same expired
  · intro flight member completion queued
    simp [launched flight member] at queued
  · intro running
    simp [performAll_machine, cases.tasks_eq] at running

theorem TimedReactor.OnTime.act (onTime : timed.OnTime)
    (sound : timed.state.Sound config)
    (due : occurrence.expires = true → timed.expiry ≤ timed.now)
    (stepped : timed.state.step occurrence = some (after, effects)) :
    TimedReactor.OnTime
      ⟨after, timed.now,
        reactorTiming.set timed.now timed.expiry effects⟩ := by
  by_cases fires : occurrence.fires = true
  · cases reactorCases stepped with
    | @proceed input next _ internal taken =>
        cases input with
        | fire row environment =>
            obtain ⟨event, exitEffects, cases⟩ :=
              sound.wellFormed.machine.fireCases taken
            exact onTime.fire sound cases
        | _ => simp [Occurrence.fires] at fires
    | _ => simp [Occurrence.fires] at fires
  · have other : occurrence.fires = false := by simpa using fires
    rw [set_of_other stepped other]
    exact onTime.other sound due stepped other

end Invariant

section Runs

variable {config : Config} {timed middle last : TimedReactor}
  {history rest : List TimedStep}

theorem TimedReactor.Reaches.sound
    (run : TimedReactor.Reaches config history last) :
    last.state.Sound config := by
  have untimed : reactor.Run (Reactor.started config)
      (untimed history) last.state := run_untimed run
  exact untimed.invariant (Reactor.Sound config)
    (Reactor.started_sound config) fun _ before admitted =>
      before.step admitted

theorem TimedReactor.Reaches.onTime
    (run : TimedReactor.Reaches config history last) : last.OnTime := by
  apply timed_induction run (Reactor.Sound config)
    (Reactor.started_sound config)
    (fun _ _ _ _ sound stepped => sound.step stepped)
    fun _ timed => TimedReactor.OnTime timed
  · exact TimedReactor.started_onTime config
  · intro past before delay sound onTime rests punctual
    exact onTime.pass sound rests punctual
  · intro past before occurrence after effects sound onTime due stepped
    exact onTime.act sound due stepped

theorem Shape.receives_of_timedOut {state : State} {tasks : List Task}
    {outstanding : List Operation} (shape : Shape state tasks outstanding)
    (running : .process .timedOut ∈ tasks) :
    state.operation = some .receive := by
  cases shape <;> simp_all

/-- A time-out is processed at the expiry of the timer at the latest, and
exactly there when the timer of the current entry caused it. -/
theorem TimedReactor.Reaches.timedOut
    (run : TimedReactor.Reaches config history last)
    (running : .process .timedOut ∈ last.state.machine.tasks) :
    last.now ≤ last.expiry ∧
      (last.state.cause = .expiry last.state.entries →
        last.now = last.expiry) := by
  have waits :=
    run.sound.wellFormed.machine.shape.receives_of_timedOut running
  exact ⟨(run.onTime.window waits).1, run.onTime.timedOut running⟩

theorem exists_lookup {Kind Result : Type*} {flight : Flight Kind Result}
    {flights : List (Flight Kind Result)} (member : flight ∈ flights) :
    ∃ found ∈ flights, lookup flight.serial flights = some found ∧
      found.serial = flight.serial := by
  cases searched : lookup flight.serial flights with
  | none =>
      have absent := List.find?_eq_none.mp searched flight member
      simp at absent
  | some found =>
      obtain ⟨inside, same⟩ := lookup_eq_some searched
      exact ⟨found, inside, rfl, same⟩

/-- Against the clock a session takes its steps, an expiry when it is due. -/
theorem timedReactor_act {timed : TimedReactor} {occurrence : Occurrence}
    {after : Reactor} {effects : List Effect}
    (stepped : timed.state.step occurrence = some (after, effects))
    (due : occurrence.expires = true → timed.expiry ≤ timed.now)
    (silent : effects.filterMap reactorTiming.duration = []) :
    timedReactor.step timed (.act occurrence) =
      some (⟨after, timed.now, timed.expiry⟩, effects) := by
  have acted : (TimedSystem.timed reactor reactorTiming).step timed
      (.act occurrence) = _ := step_act due stepped
  rw [timedReactor, acted, Timing.set_of_silent silent]

theorem step_wake {reactor : Reactor} {serial : Nat} {wait : Flight Nat Wait}
    (returned : reactor.machine.returned = true)
    (located : lookup serial reactor.waits = some wait)
    (expired : wait.result = some .expired)
    (isOpen : reactor.machine.data.socketOpen = true) :
    reactor.step (.wake serial) =
      some (Reactor.cancelSocket { reactor with
        waits := remove serial reactor.waits } (.expiry serial),
        [.cancelSocket]) := by
  simp [Reactor.step, returned, located, expired, isOpen]

theorem step_handle_aborted {reactor : Reactor} {serial : Nat} {cause : Cause}
    (returned : reactor.machine.returned = true)
    (outstanding : reactor.machine.outstanding = [.receive])
    (flights : reactor.flights =
      [⟨.receive, serial, some (.receiveFailed, cause)⟩]) :
    reactor.step (.handle serial) =
      some ({ reactor with
        machine := { reactor.machine with
          data := { reactor.machine.data with receivedPacket := 0 }
          tasks := [.process .timedOut]
          outstanding := [] }
        flights := []
        cause }, []) := by
  simp [Reactor.step, flights, lookup, Machine.step, returned, outstanding,
    Completion.operation, Completion.start, remove, Reactor.performAll]

/-- The steps from a waiting state at rest to the time-out of its timer. -/
theorem Reactor.Sound.exists_timedOut {reactor : Reactor}
    (sound : reactor.Sound config)
    (waits : reactor.machine.state.operation = some .receive)
    (rests : reactor.rests = true) :
    ∃ serial receive expired woken after,
      reactor.step (.expire serial) = some (expired, []) ∧
      expired.step (.wake serial) = some (woken, [.cancelSocket]) ∧
      woken.step (.handle receive) = some (after, []) ∧
      after.machine.state = reactor.machine.state ∧
      after.machine.tasks = [.process .timedOut] ∧
      after.cause = .expiry after.entries := by
  obtain ⟨returned, flying, waiting⟩ := rests_iff.mp rests
  have idle := (returned_iff.mp returned).2
  obtain ⟨⟨kind, receive, result⟩, flights, rfl⟩ :=
    sound.wellFormed.exists_receive waits idle
  obtain rfl : result = none :=
    flying _ (by rw [flights]; exact List.mem_singleton_self _)
  obtain ⟨wait, member, _, current⟩ := sound.armed waits rests
  have isOpen := sound.wellFormed.machine.socketOpen waits
  have outstanding : reactor.machine.outstanding = [.receive] := by
    rw [← sound.wellFormed.kinds, flights]
    rfl
  obtain ⟨awaited, inside, searched, same⟩ := exists_lookup member
  have armed : (awaits wait.serial reactor.waits).isSome = true := by
    simp [awaits, searched, waiting awaited inside]
  -- All waits are pending, so the one found behind the expiry is expired.
  obtain ⟨queued, found, located, sameQueued⟩ := exists_lookup
    (List.mem_map_of_mem (f := fun flight : Flight Nat Wait =>
      { flight with result := flight.result <|>
          if flight.serial = wait.serial then some Wait.expired else none })
      member)
  obtain ⟨earlier, among, rfl⟩ := List.mem_map.mp found
  have expired : (none <|> if earlier.serial = wait.serial then
      some Wait.expired else none) = some Wait.expired :=
    if_pos sameQueued
  have cancelled : (Reactor.cancelSocket { reactor with
      waits := remove wait.serial
        (finish wait.serial .expired reactor.waits) }
      (.expiry wait.serial)).flights =
        [⟨.receive, receive, some (.receiveFailed, .expiry wait.serial)⟩] := by
    simp [Reactor.cancelSocket, flights, cancel, resolve,
      Operation.usesDataSocket, Operation.aborted]
  exact ⟨wait.serial, receive, _, _, _, if_pos armed,
    step_wake returned located (by simpa [waiting earlier among] using expired)
      isOpen,
    step_handle_aborted returned outstanding cancelled, rfl, rfl,
    congrArg Cause.expiry current⟩

/-- The step receives a packet from the network. -/
def TimedStep.Receives (step : TimedStep) : Prop :=
  ∃ serial sender datagram,
    step.input = .act (.arrive serial (.received sender datagram))

/-- When a waiting state rests, the timer can expire at its expiry, and the
session processes the time-out there. -/
theorem TimedReactor.Reaches.exists_timedOut
    (run : TimedReactor.Reaches config history last)
    (waits : last.state.machine.state.operation = some .receive)
    (rests : last.state.rests = true) :
    ∃ later next, timedReactor.Run last later next ∧
      (∀ step ∈ later, ¬ TimedStep.Receives step) ∧
      next.now = last.expiry ∧
      next.state.machine.state = last.state.machine.state ∧
      next.state.machine.tasks = [.process .timedOut] ∧
      next.state.cause = .expiry next.state.entries := by
  obtain ⟨serial, receive, expired, woken, after, expires, wakes, handles,
    state, tasks, cause⟩ := run.sound.exists_timedOut waits rests
  have inTime := (run.onTime.window waits).1
  have whole : last.now + (last.expiry - last.now) = last.expiry :=
    Nat.add_sub_of_le inTime
  have passes : timedReactor.step last (.pass (last.expiry - last.now)) =
      some ({ last with now := last.now + (last.expiry - last.now) }, []) :=
    step_pass rests fun _ => Nat.le_of_eq whole
  rw [whole] at passes
  have first : timedReactor.step ⟨last.state, last.expiry, last.expiry⟩
      (.act (.expire serial)) =
        some (⟨expired, last.expiry, last.expiry⟩, []) :=
    timedReactor_act expires (fun _ => Nat.le_refl _) rfl
  have second : timedReactor.step ⟨expired, last.expiry, last.expiry⟩
      (.act (.wake serial)) =
        some (⟨woken, last.expiry, last.expiry⟩, [.cancelSocket]) :=
    timedReactor_act wakes (by simp [Occurrence.expires]) rfl
  have third : timedReactor.step ⟨woken, last.expiry, last.expiry⟩
      (.act (.handle receive)) =
        some (⟨after, last.expiry, last.expiry⟩, []) :=
    timedReactor_act handles (by simp [Occurrence.expires]) rfl
  refine ⟨[⟨_, _, _, _⟩, ⟨_, _, _, _⟩, ⟨_, _, _, _⟩, ⟨_, _, _, _⟩],
    ⟨after, last.expiry, last.expiry⟩,
    ⟨rfl, passes, rfl, first, rfl, second, rfl, third, rfl⟩, ?_, rfl, state,
    tasks, cause⟩
  simp [TimedStep.Receives]

end Runs

end MsmTftp
