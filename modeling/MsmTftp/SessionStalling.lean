import MsmTftp.SessionDeadlines
import MsmTftp.SessionRetryBudget

/-!
# How long a session lasts without progress

A row either leaves the timer alone or enters a waiting state, which sets it
anew.  While packets are only ignored the deadline follows the last of them.
While nothing is ignored and no new packet is formed, each of the four waits
that `CanRetry` allows takes one time-out.
-/

namespace MsmTftp

open CellBuffer CompletionQueue TimedSystem TransitionSystem

namespace Row

/-- A received packet is answered by nothing. -/
def ignores (row : Row) : Bool :=
  decide (row.event = some .packetReceived ∧ row.action = .none)

/-- A packet was sent, and the session waits for the answer. -/
def startsWait (row : Row) : Bool :=
  decide (row.event = some .packetSent ∧
    row.target.operation = some .receive)

/-- A new packet is formed that the transfer goes on with. -/
def progresses (row : Row) : Bool :=
  decide (row.action = .formDataPacket ∨ row.action = .formOackPacket ∨
    row.action = .formAckPacket)

end Row

/-- The row that fires. -/
def Occurrence.row? : Occurrence → Option Row
  | proceed (.fire row _) => some row
  | _ => none

namespace TimedStep

/-- The row that fires in a step. -/
def row? (step : TimedStep) : Option Row :=
  step.input.act?.bind Occurrence.row?

/-- An ignored packet has been handled. -/
def ignores (step : TimedStep) : Bool :=
  step.row?.any Row.ignores

/-- The session starts to wait after sending. -/
def StartsWait (step : TimedStep) : Prop :=
  ∃ row, step.row? = some row ∧ row.startsWait = true

/-- If the step fires a row, it ignores a packet. -/
def OnlyIgnores (step : TimedStep) : Prop :=
  ∀ row, step.row? = some row → row.ignores = true

/-- The step neither ignores a packet nor makes progress nor resets the
session. -/
def Stalls (step : TimedStep) : Prop :=
  ∀ row, step.row? = some row →
    row.ignores = false ∧ row.progresses = false ∧ row.action ≠ .reset

instance (step : TimedStep) : Decidable (StartsWait step) :=
  inferInstanceAs
    (Decidable (∃ row ∈ step.input.act?.bind Occurrence.row?,
      row.startsWait = true))

instance (step : TimedStep) : Decidable (OnlyIgnores step) :=
  inferInstanceAs
    (Decidable (∀ row ∈ step.input.act?.bind Occurrence.row?,
      row.ignores = true))

instance (step : TimedStep) : Decidable (Stalls step) :=
  inferInstanceAs
    (Decidable (∀ row ∈ step.input.act?.bind Occurrence.row?,
      row.ignores = false ∧ row.progresses = false ∧ row.action ≠ .reset))

end TimedStep

/-- When the last ignored packet was handled, or else when the session started
to wait. -/
def lastHandled (sent : TimedStep) (rest : List TimedStep) : Nat :=
  ((rest.filter TimedStep.ignores).getLast?.getD sent).before.now

/-- The session waits for a packet. -/
def Reactor.receives (reactor : Reactor) : Bool :=
  reactor.machine.state.operation == some .receive

/-- The session waits for the end of a send. -/
def Reactor.sends (reactor : Reactor) : Bool :=
  reactor.machine.state.operation == some .send

/-- What a step does to the state and the timer of a session. -/
inductive ClockCases (before : Reactor) :
    Occurrence → List Effect → Reactor → Prop
  | keeps {occurrence : Occurrence} {effects : List Effect} {after : Reactor}
      (silent : occurrence.row? = none)
      (state : after.machine.state = before.machine.state)
      (timeOut : after.machine.data.timeOut = before.machine.data.timeOut)
      (count : after.machine.data.resendCount =
        before.machine.data.resendCount)
      (set : ∀ now expiry,
        reactorTiming.set now expiry effects = expiry) :
      ClockCases before occurrence effects after
  | fires {row : Row} {environment : Environment} {event : Option Event}
      {exitEffects effects : List Effect} {after : Reactor}
      (cases : FireCases before.machine row environment event exitEffects
        effects after.machine)
      (set : ∀ now expiry, reactorTiming.set now expiry effects =
        if row.target.operation = some .receive then
          now + ticks after.machine.data.timeOut
        else expiry) :
      ClockCases before (.proceed (.fire row environment)) effects after

section Steps

variable {config : Config} {before after : Reactor}
  {occurrence : Occurrence} {effects : List Effect}

theorem Occurrence.fires_eq_false (silent : occurrence.row? = none) :
    occurrence.fires = false := by
  cases occurrence with
  | proceed input =>
      cases input with
      | fire row environment => simp [Occurrence.row?] at silent
      | _ => rfl
  | _ => rfl

theorem Reactor.Sound.clockCases (sound : before.Sound config)
    (stepped : before.step occurrence = some (after, effects)) :
    ClockCases before occurrence effects after := by
  have silence (silent : occurrence.row? = none) (now expiry : Nat) :
      reactorTiming.set now expiry effects = expiry :=
    set_of_other stepped (Occurrence.fires_eq_false silent)
  cases reactorCases stepped with
  | arrive awaited => exact .keeps rfl rfl rfl rfl (silence rfl)
  | expire armed => exact .keeps rfl rfl rfl rfl (silence rfl)
  | wakeExpired member expired idle isOpen =>
      exact .keeps rfl rfl rfl rfl (silence rfl)
  | wakeAborted member aborted idle =>
      exact .keeps rfl rfl rfl rfl (silence rfl)
  | @handle flight completion cause next _ located queued taken =>
      cases stepCases taken with
      | complete settled idle started =>
          refine .keeps rfl ?_ ?_ ?_ (silence rfl) <;>
            rw [performAll_machine] <;> cases completion <;> rfl
  | @proceed input next _ internal taken =>
      cases input with
      | complete completion => exact absurd rfl (internal completion)
      | fire row environment =>
          obtain ⟨event, exitEffects, cases⟩ :=
            sound.wellFormed.machine.fireCases taken
          have lands : (Reactor.performAll { before with machine := next }
              effects).machine = next := performAll_machine effects
          apply ClockCases.fires (lands.symm ▸ cases)
          intro now expiry
          rw [lands]
          exact set_of_fire cases
      | parse =>
          cases stepCases taken with
          | parse settled running =>
              exact .keeps rfl rfl rfl rfl (silence rfl)
      | reject =>
          cases stepCases taken with
          | reject settled running refused =>
              exact .keeps rfl rfl rfl rfl (silence rfl)

theorem Firing.of_ignored {data : SessionData} {source target : State}
    (firing : Firing data source (some .packetReceived) .none target) :
    target = .waitingForAck := by
  cases firing <;> rfl

theorem FireCases.of_ignores {machine next : Machine} {row : Row}
    {environment : Environment} {event : Option Event}
    {exitEffects : List Effect}
    (cases : FireCases machine row environment event exitEffects effects
      next) (ignores : row.ignores = true) :
    row.target = .waitingForAck ∧ next.data = machine.data := by
  have firing := cases.firing
  obtain ⟨_, _, kind, _⟩ := mem_enabledRows.mp cases.enabled
  obtain ⟨received, acts⟩ := of_decide_eq_true ignores
  rw [← kind, received, acts] at firing
  have target := firing.of_ignored
  refine ⟨target, ?_⟩
  rw [cases.data_eq (by simp [target]), acts]
  rfl

/-- After a row that starts a wait, the deadline is one time-out away. -/
theorem TimedReactor.Reaches.expiry_of_startsWait {past : List TimedStep}
    {sent : TimedStep}
    (run : TimedReactor.Reaches config (past ++ [sent]) sent.after)
    (starts : sent.StartsWait) :
    sent.after.state.receives = true ∧
      sent.after.expiry =
        sent.before.now + ticks sent.after.state.machine.data.timeOut := by
  obtain ⟨before, admitted, _⟩ := System.run_concat.mp run
  have sound := TimedReactor.Reaches.sound before
  obtain ⟨start, input, outputs, finish⟩ := sent
  obtain ⟨row, fired, starts⟩ := starts
  have waits := (of_decide_eq_true starts).2
  cases TimedCases.of_admits admitted with
  | pass rests punctual => simp [TimedStep.row?, TimedInput.act?] at fired
  | act due stepped =>
      cases sound.clockCases stepped with
      | keeps silent state timeOut count set =>
          simp [TimedStep.row?, TimedInput.act?, silent] at fired
      | fires cases set =>
          obtain rfl : _ = row := Option.some.inj fired
          constructor
          · simp [Reactor.receives, cases.state_eq, waits]
          · simp only [set, if_pos waits]

end Steps

section Ignoring

variable {config : Config} {middle last : TimedReactor}
  {past rest : List TimedStep}

/-- The deadline while packets are ignored only. -/
structure Postponed (middle : TimedReactor) (rest : List TimedStep)
    (last : TimedReactor) : Prop where
  waits : last.state.receives = true
  timeOut : last.state.machine.data.timeOut =
    middle.state.machine.data.timeOut
  expiry : last.expiry =
    match (rest.filter TimedStep.ignores).getLast? with
    | some step => step.before.now + ticks middle.state.machine.data.timeOut
    | none => middle.expiry

/-- Each ignored packet moves the deadline to one time-out after it was
handled, and nothing else moves it. -/
theorem TimedReactor.Reaches.postponed
    (before : TimedReactor.Reaches config past middle)
    (run : timedReactor.Run middle rest last)
    (waits : middle.state.receives = true)
    (only : ∀ step ∈ rest, TimedStep.OnlyIgnores step) :
    Postponed middle rest last := by
  have invariant : (∀ step ∈ rest, TimedStep.OnlyIgnores step) →
      Postponed middle rest last := by
    apply timed_induction run (Reactor.Sound config) before.sound
      (fun _ _ _ _ sound stepped => sound.step stepped)
      fun rest timed => (∀ step ∈ rest, TimedStep.OnlyIgnores step) →
        Postponed middle rest timed
    · intro _
      exact ⟨waits, rfl, rfl⟩
    · intro earlier timed delay _ holds _ _ only
      obtain ⟨waits, timeOut, expiry⟩ := holds fun step member =>
        only step (List.mem_append_left _ member)
      exact ⟨waits, timeOut, by simpa [List.filter_append, TimedStep.ignores,
        TimedStep.row?, TimedInput.act?] using expiry⟩
    · intro earlier timed occurrence next outputs sound holds due stepped only
      obtain ⟨waits, timeOut, expiry⟩ := holds fun step member =>
        only step (List.mem_append_left _ member)
      have here := only _ (List.mem_append_right _ (List.mem_singleton_self _))
      cases sound.clockCases stepped with
      | keeps silent state sameTimeOut count set =>
          refine ⟨?_, sameTimeOut.trans timeOut, ?_⟩
          · rw [Reactor.receives, state]
            exact waits
          · simpa [List.filter_append, TimedStep.ignores, TimedStep.row?,
              TimedInput.act?, silent, set] using expiry
      | @fires row environment _ _ _ _ cases set =>
          have ignores : row.ignores = true := here row rfl
          obtain ⟨target, same⟩ := cases.of_ignores ignores
          have receives : row.target.operation = some .receive := by
            rw [target]
            rfl
          have kept : next.machine.data.timeOut =
              middle.state.machine.data.timeOut := by
            rw [same]
            exact timeOut
          refine ⟨?_, kept, ?_⟩
          · simp [Reactor.receives, cases.state_eq, receives]
          · simp [List.filter_append, TimedStep.ignores, TimedStep.row?,
              TimedInput.act?, Occurrence.row?, ignores, set, receives, kept]
  exact invariant only

end Ignoring

section Stalling

variable {config : Config} {middle timed last : TimedReactor}
  {past rest : List TimedStep} {waited sent resends : Nat}

/-- The time a session can have waited for in a state, after it has sent its
packet again some times. -/
def State.allowance (state : State) (resends duration : Nat) : Nat :=
  match state with
  | .sendingAck | .sendingData | .dataRead => resends * duration
  | _ => (resends + 1) * duration

/-- The time left to the deadline of a waiting state. -/
def TimedReactor.remaining (timed : TimedReactor) : Nat :=
  if timed.state.receives then timed.expiry - timed.now else 0

/-- What holds while a session stalls: `waited` and `sent` are the times that
have passed in waiting and in sending states. -/
structure Stalled (middle : TimedReactor) (waited sent resends : Nat)
    (timed : TimedReactor) : Prop where
  busy : timed.state.machine.state.busy = true
  timeOut : timed.state.machine.data.timeOut =
    middle.state.machine.data.timeOut
  few : resends ≤ 3
  counted : resends ≤ timed.state.machine.data.resendCount
  fresh : timed.state.machine.state = .dataRead → resends = 0
  waited_le : waited + timed.remaining ≤
    timed.state.machine.state.allowance resends
      (ticks middle.state.machine.data.timeOut)
  clock : timed.now = middle.now + waited + sent

theorem State.allowance_le (state : State) (resends duration : Nat) :
    state.allowance resends duration ≤ (resends + 1) * duration := by
  have more : resends * duration ≤ (resends + 1) * duration :=
    Nat.mul_le_mul_right duration (Nat.le_succ resends)
  cases state <;> simp only [State.allowance] <;> omega

theorem State.allowance_of_receive {state : State} (resends duration : Nat)
    (receives : state.operation = some .receive) :
    state.allowance resends duration = (resends + 1) * duration := by
  cases state <;> simp [State.operation, State.allowance] at receives ⊢

theorem State.receive_or_send {state : State} (busy : state.busy = true)
    (settled : state.operation ≠ none) :
    state.operation = some .receive ∨ state.operation = some .send := by
  cases state <;> simp [State.busy, State.operation] at busy settled ⊢

theorem Firing.of_stalls {data : SessionData} {source target : State}
    {event : Option EventKind} {action : Action}
    (firing : Firing data source event action target)
    (busy : source.busy = true)
    (heeds : ¬ (event = some .packetReceived ∧ action = .none))
    (repeats : ¬ (action = .formDataPacket ∨ action = .formOackPacket ∨
      action = .formAckPacket)) (ongoing : action ≠ .reset) :
    action = .none ∧ (source = .sendingAck ∨ source = .sendingData) ∧
        target.operation = some .receive ∨
      action = .timeOut ∧ source.operation = some .receive ∧
        data.canRetry = true ∧
          (target = .sendingAck ∨ target = .sendingData) ∨
      action = .resetTimeOut ∧ source = .dataRead ∧ target = .sendingData ∨
      (action = .formErrorPacket ∨ action = .formProtocolErrorPacket ∨
          action = .writeData) ∧
        (target = .sendingError ∨ target = .dataWritten) := by
  cases firing <;> simp_all [State.busy, State.operation]

/-- Four waits of one time-out each are all that is allowed. -/
theorem Stalled.waited_le_four
    (stalled : Stalled middle waited sent resends timed) :
    waited ≤ 4 * ticks middle.state.machine.data.timeOut := by
  have allowed := Nat.le_trans (Nat.le_add_right _ _) stalled.waited_le
  calc waited
      ≤ timed.state.machine.state.allowance resends
          (ticks middle.state.machine.data.timeOut) := allowed
    _ ≤ (resends + 1) * ticks middle.state.machine.data.timeOut :=
        State.allowance_le _ _ _
    _ ≤ 4 * ticks middle.state.machine.data.timeOut :=
        Nat.mul_le_mul_right _ (Nat.succ_le_succ stalled.few)

theorem Stalled.start (onTime : middle.OnTime)
    (busy : middle.state.machine.state.busy = true) :
    Stalled middle 0 0 0 middle := by
  refine ⟨busy, rfl, Nat.zero_le _, Nat.zero_le _, fun _ => rfl, ?_, rfl⟩
  rw [Nat.zero_add, TimedReactor.remaining]
  split
  · rename_i receives
    have waits : middle.state.machine.state.operation = some .receive :=
      beq_iff_eq.mp receives
    have early := (onTime.window waits).2
    rw [State.allowance_of_receive _ _ waits]
    omega
  · exact Nat.zero_le _

theorem Stalled.pass {delay : Nat}
    (stalled : Stalled middle waited sent resends timed)
    (sound : timed.state.Sound config) (rests : timed.state.rests = true)
    (punctual : timed.state.armed = true →
      timed.now + delay ≤ timed.expiry) :
    Stalled middle (waited + if timed.state.receives then delay else 0)
      (sent + if timed.state.sends then delay else 0) resends
      { timed with now := timed.now + delay } := by
  obtain ⟨busy, timeOut, few, counted, fresh, waited_le, clock⟩ := stalled
  have settled := (returned_iff.mp (rests_iff.mp rests).1).1
  refine ⟨busy, timeOut, few, counted, fresh, ?_, ?_⟩
  · refine Nat.le_trans ?_ waited_le
    simp only [TimedReactor.remaining]
    split
    · rename_i receives
      obtain ⟨wait, member, pending, _⟩ :=
        sound.armed (beq_iff_eq.mp receives) rests
      have late := punctual (armed_of_mem member pending)
      omega
    · exact Nat.le_refl _
  · rcases State.receive_or_send busy settled with receives | sends
    · simp only [clock, Reactor.receives, Reactor.sends, receives]
      simp
      omega
    · simp only [clock, Reactor.receives, Reactor.sends, sends]
      simp
      omega

theorem Stalled.keep {after : Reactor}
    (stalled : Stalled middle waited sent resends timed)
    (state : after.machine.state = timed.state.machine.state)
    (sameTimeOut : after.machine.data.timeOut =
      timed.state.machine.data.timeOut)
    (count : after.machine.data.resendCount =
      timed.state.machine.data.resendCount) :
    Stalled middle waited sent resends ⟨after, timed.now, timed.expiry⟩ := by
  obtain ⟨busy, timeOut, few, counted, fresh, waited_le, clock⟩ := stalled
  have receives : after.receives = timed.state.receives := by
    rw [Reactor.receives, state]
    rfl
  have left : TimedReactor.remaining ⟨after, timed.now, timed.expiry⟩ =
      timed.remaining := by
    simp [TimedReactor.remaining, receives]
  exact ⟨by rwa [state], sameTimeOut.trans timeOut, few, by rwa [count],
    by rwa [state], by rwa [left, state], clock⟩

theorem FireCases.ongoing {machine next : Machine} {row : Row}
    {environment : Environment} {event : Option Event}
    {exitEffects effects : List Effect}
    (cases : FireCases machine row environment event exitEffects effects
      next) (busy : machine.state.busy = true) (ongoing : row.action ≠ .reset) :
    row.target.busy = true ∧
      next.data = (row.action.run environment event machine.data).1 ∧
        next.data.timeOut = machine.data.timeOut := by
  have target := cases.firing.busy ongoing busy
  have data_eq := cases.data_eq (State.ne_accepting_of_busy target)
  refine ⟨target, data_eq, ?_⟩
  rw [data_eq]
  refine (run_remembers ?_).1
  intro serves
  have accepts := (cases.firing.of_initServe (.inl serves)).1
  simp [accepts, State.busy] at busy

theorem Stalled.unarmed {row : Row} {environment : Environment}
    {event : Option Event} {exitEffects effects : List Effect}
    {after : Reactor} {expiry : Nat}
    (stalled : Stalled middle waited sent resends timed)
    (cases : FireCases timed.state.machine row environment event exitEffects
      effects after.machine) (ongoing : row.action ≠ .reset)
    (unarmed : row.target.operation ≠ some .receive) {more : Nat}
    (few : more ≤ 3) (counted : more ≤ after.machine.data.resendCount)
    (fresh : row.target = .dataRead → more = 0)
    (allowed : waited ≤ row.target.allowance more
      (ticks middle.state.machine.data.timeOut)) :
    Stalled middle waited sent more ⟨after, timed.now, expiry⟩ := by
  obtain ⟨target, _, kept⟩ := cases.ongoing stalled.busy ongoing
  have left : TimedReactor.remaining ⟨after, timed.now, expiry⟩ = 0 := by
    simp [TimedReactor.remaining, Reactor.receives, cases.state_eq, unarmed]
  refine ⟨by rwa [cases.state_eq], kept.trans stalled.timeOut, few, counted,
    ?_, ?_, stalled.clock⟩
  · rwa [cases.state_eq]
  · rwa [left, cases.state_eq]

theorem Stalled.armed {row : Row} {environment : Environment}
    {event : Option Event} {exitEffects effects : List Effect}
    {after : Reactor} {expiry : Nat}
    (stalled : Stalled middle waited sent resends timed)
    (cases : FireCases timed.state.machine row environment event exitEffects
      effects after.machine) (acts : row.action = .none)
    (sends : timed.state.machine.state = .sendingAck ∨
      timed.state.machine.state = .sendingData)
    (receives : row.target.operation = some .receive)
    (set : expiry = timed.now + ticks after.machine.data.timeOut) :
    Stalled middle waited sent resends ⟨after, timed.now, expiry⟩ := by
  obtain ⟨target, data_eq, kept⟩ :=
    cases.ongoing stalled.busy (by simp [acts])
  obtain ⟨busy, timeOut, few, counted, fresh, waited_le, clock⟩ := stalled
  have same := kept.trans timeOut
  have left : TimedReactor.remaining ⟨after, timed.now, expiry⟩ =
      ticks middle.state.machine.data.timeOut := by
    simp [TimedReactor.remaining, Reactor.receives, cases.state_eq,
      receives, set, same]
  refine ⟨by rwa [cases.state_eq], same, few, ?_, ?_, ?_, clock⟩
  · rw [data_eq, acts]
    exact counted
  · rw [cases.state_eq]
    intro reads
    simp [reads, State.operation] at receives
  · have sending : timed.state.machine.state.allowance resends
        (ticks middle.state.machine.data.timeOut) =
          resends * ticks middle.state.machine.data.timeOut := by
      rcases sends with sends | sends <;> rw [sends] <;> rfl
    rw [left, cases.state_eq, State.allowance_of_receive _ _ receives,
      Nat.succ_mul]
    omega

/-- A row that fires while a session stalls. -/
theorem Stalled.fire {row : Row} {environment : Environment}
    {event : Option Event} {exitEffects effects : List Effect}
    {after : Reactor} {expiry : Nat}
    (stalled : Stalled middle waited sent resends timed)
    (cases : FireCases timed.state.machine row environment event exitEffects
      effects after.machine)
    (set : expiry = if row.target.operation = some .receive then
      timed.now + ticks after.machine.data.timeOut else timed.expiry)
    (ignores : row.ignores = false) (progresses : row.progresses = false)
    (ongoing : row.action ≠ .reset) :
    ∃ resends, Stalled middle waited sent resends
      ⟨after, timed.now, expiry⟩ := by
  obtain ⟨_, _, kind, _⟩ := mem_enabledRows.mp cases.enabled
  have heeds := of_decide_eq_false ignores
  rw [kind] at heeds
  have data_eq := (cases.ongoing stalled.busy ongoing).2.1
  have allowed : waited ≤ timed.state.machine.state.allowance resends
      (ticks middle.state.machine.data.timeOut) :=
    Nat.le_trans (Nat.le_add_right _ _) stalled.waited_le
  have short := Nat.le_trans allowed (State.allowance_le _ _ _)
  rcases cases.firing.of_stalls stalled.busy heeds
    (of_decide_eq_false progresses) ongoing with
      ⟨acts, sends, receives⟩ | ⟨acts, _, retry, sends⟩ |
        ⟨acts, reads, sends⟩ | ⟨acts, errs⟩
  · -- The packet was sent, and the session waits for one more time-out.
    rw [if_pos receives] at set
    exact ⟨resends, stalled.armed cases acts sends receives set⟩
  · -- A time-out is answered by sending the packet again.
    have below : timed.state.machine.data.resendCount < 3 :=
      of_decide_eq_true retry
    have counted := stalled.counted
    refine ⟨resends + 1,
      stalled.unarmed cases ongoing ?_ (by omega) ?_ ?_ ?_⟩
    · rcases sends with sends | sends <;> simp [sends, State.operation]
    · rw [data_eq, acts]
      exact Nat.succ_le_succ counted
    · rcases sends with sends | sends <;> simp [sends]
    · rcases sends with sends | sends <;> rw [sends] <;> exact short
  · -- A block that was read is sent for the first time.
    obtain rfl := stalled.fresh reads
    rw [reads] at allowed
    refine ⟨0, stalled.unarmed cases ongoing ?_ (Nat.zero_le _)
      (Nat.zero_le _) (fun _ => rfl) ?_⟩
    · simp [sends, State.operation]
    · rw [sends]
      exact allowed
  · -- An error is reported, or a block is being saved.
    refine ⟨resends, stalled.unarmed cases ongoing ?_ stalled.few ?_ ?_ ?_⟩
    · rcases errs with errs | errs <;> simp [errs, State.operation]
    · have kept := run_keepsSession environment event
        timed.state.machine.data ongoing
      rw [data_eq, kept.counters.retries]
      · exact stalled.counted
      · rcases acts with acts | acts | acts <;> simp [acts]
      · rcases acts with acts | acts | acts <;> simp [acts]
    · rcases errs with errs | errs <;> simp [errs]
    · rcases errs with errs | errs <;> rw [errs] <;> exact short

/-- The time a session has waited for without progress, since any point of a
transfer. -/
theorem TimedReactor.Reaches.stalled
    (before : TimedReactor.Reaches config past middle)
    (run : timedReactor.Run middle rest last)
    (busy : middle.state.machine.state.busy = true)
    (stalls : ∀ step ∈ rest, TimedStep.Stalls step) :
    ∃ resends, Stalled middle (elapsed Reactor.receives rest)
      (elapsed Reactor.sends rest) resends last := by
  have invariant : TimedReactor.OnTime last ∧
      ((∀ step ∈ rest, TimedStep.Stalls step) →
        ∃ resends, Stalled middle (elapsed Reactor.receives rest)
          (elapsed Reactor.sends rest) resends last) := by
    apply timed_induction run (Reactor.Sound config) before.sound
      (fun _ _ _ _ sound stepped => sound.step stepped)
      fun rest timed => TimedReactor.OnTime timed ∧
        ((∀ step ∈ rest, TimedStep.Stalls step) →
          ∃ resends, Stalled middle (elapsed Reactor.receives rest)
            (elapsed Reactor.sends rest) resends timed)
    · exact ⟨before.onTime, fun _ => ⟨0, .start before.onTime busy⟩⟩
    · intro earlier timed delay sound ⟨onTime, holds⟩ rests punctual
      refine ⟨onTime.pass sound rests punctual, ?_⟩
      intro stalls
      obtain ⟨resends, stalled⟩ := holds fun step member =>
        stalls step (List.mem_append_left _ member)
      rw [elapsed_concat, elapsed_concat]
      exact ⟨resends, stalled.pass sound rests punctual⟩
    · intro earlier timed occurrence next outputs sound ⟨onTime, holds⟩ due
        stepped
      refine ⟨onTime.act sound due stepped, ?_⟩
      intro stalls
      obtain ⟨resends, stalled⟩ := holds fun step member =>
        stalls step (List.mem_append_left _ member)
      have here := stalls _
        (List.mem_append_right _ (List.mem_singleton_self _))
      rw [elapsed_act, elapsed_act]
      cases sound.clockCases stepped with
      | keeps silent state timeOut count set =>
          rw [set]
          exact ⟨resends, stalled.keep state timeOut count⟩
      | @fires row environment _ _ _ _ cases set =>
          obtain ⟨ignores, progresses, ongoing⟩ := here row rfl
          exact stalled.fire cases (set _ _) ignores progresses ongoing
  exact invariant.2 stalls

theorem exists_timedOut_row {data : SessionData} {state : State}
    (receives : state.operation = some .receive) :
    ∃ row ∈ enabledRows state (some .timedOut) data,
      row.action = if data.canRetry then .timeOut else .reset := by
  obtain ⟨action, target, firing⟩ := exists_timedOut_firing data receives
  obtain ⟨row, enabled, acts, _⟩ := firing.exists_row
  refine ⟨row, enabled, ?_⟩
  rw [acts]
  rcases firing.of_timedOut.2 with ⟨retry, acts, _⟩ | ⟨exhausted, acts, _⟩
  · simp [acts, retry]
  · simp [acts, exhausted]

/-- While packets are only ignored, the deadline is one time-out after the
last of them was handled.  A time-out is processed then at the latest, and the
timer can expire exactly then.  A session that neither ignores packets nor
makes progress is reset before it has waited for more than four time-outs. -/
theorem time_out_after_last_ignored {config : Config}
    {past rest : List TimedStep} {middle last : TimedReactor}
    (before : TimedReactor.Reaches config past middle)
    (run : timedReactor.Run middle rest last) :
    (∀ earlier sent, past = earlier ++ [sent] → TimedStep.StartsWait sent →
      (∀ step ∈ rest, TimedStep.OnlyIgnores step) →
        last.state.receives = true ∧ last.now ≤ last.expiry ∧
          last.expiry = lastHandled sent rest +
            ticks last.state.machine.data.timeOut) ∧
    (.process .timedOut ∈ last.state.machine.tasks →
      last.now ≤ last.expiry ∧
        (last.state.cause = .expiry last.state.entries →
          last.now = last.expiry) ∧
        ∃ row ∈ enabledRows last.state.machine.state (some .timedOut)
            last.state.machine.data,
          row.action =
            if last.state.machine.data.canRetry then .timeOut
            else .reset) ∧
    (last.state.receives = true → last.state.rests = true →
      ∃ later next, timedReactor.Run last later next ∧
        (∀ step ∈ later, ¬ TimedStep.Receives step) ∧
        next.now = last.expiry ∧
        next.state.machine.tasks = [.process .timedOut] ∧
        next.state.cause = .expiry next.state.entries) ∧
    (middle.state.machine.state.busy = true →
      (∀ step ∈ rest, TimedStep.Stalls step) →
        elapsed Reactor.receives rest ≤
            4 * ticks middle.state.machine.data.timeOut ∧
          last.now = middle.now + elapsed Reactor.receives rest +
            elapsed Reactor.sends rest) := by
  have whole : TimedReactor.Reaches config (past ++ rest) last :=
    System.run_append.mpr ⟨middle, before, run⟩
  refine ⟨?_, ?_, ?_, ?_⟩
  · rintro earlier sent rfl starts only
    obtain rfl : sent.after = middle := (System.run_concat.mp before).2.2
    obtain ⟨receives, deadline⟩ := before.expiry_of_startsWait starts
    obtain ⟨waits, timeOut, expiry⟩ := before.postponed run receives only
    refine ⟨waits, (whole.onTime.window (beq_iff_eq.mp waits)).1, ?_⟩
    rw [expiry, timeOut, lastHandled]
    cases (rest.filter TimedStep.ignores).getLast? with
    | none => exact deadline
    | some step => rfl
  · intro running
    obtain ⟨early, punctual⟩ := whole.timedOut running
    have receives :=
      whole.sound.wellFormed.machine.shape.receives_of_timedOut running
    exact ⟨early, punctual, exists_timedOut_row receives⟩
  · intro waits rests
    obtain ⟨later, next, run, silent, now, _, tasks, cause⟩ :=
      whole.exists_timedOut (beq_iff_eq.mp waits) rests
    exact ⟨later, next, run, silent, now, tasks, cause⟩
  · intro busy stalls
    obtain ⟨resends, stalled⟩ := before.stalled run busy stalls
    exact ⟨stalled.waited_le_four, stalled.clock⟩

end Stalling

section Examples

/-- An input against the clock.  An occurrence comes with the answers of the
operating system to the handler it starts. -/
def TimedReactor.entry : TimedInput (Occurrence × Environment) →
    TimedInput Occurrence × (TimedReactor → Option (TimedInput Occurrence))
  | .pass delay => (.pass delay, fun _ => none)
  | .act (occurrence, environment) =>
      (.act occurrence, fun timed =>
        (timed.state.machine.pending environment).map fun input =>
          .act (.proceed input))

/-- A download is requested, and its first block is sent at once. -/
def firstBlock : List (TimedInput (Occurrence × Environment)) :=
  [.act (.arrive 1 (.accepted .client (requestOf .readRequest)), {}),
    .act (.handle 1, {}), .act (.arrive 2 (.sent false), {}),
    .act (.handle 2, {})]

/-- The timer of an entry expires after a second. -/
def timeOutOf (serial : Nat) : List (TimedInput (Occurrence × Environment)) :=
  [.pass (ticks 1000), .act (.expire serial, {}), .act (.wake serial, {}),
    .act (.handle serial, {})]

/-- Every 900 milliseconds an old ACK or a packet of a stranger arrives, five
in all. -/
def strayPackets : List (TimedInput (Occurrence × Environment)) :=
  firstBlock ++
    (List.range' 3 5).flatMap (fun serial =>
      [.pass (ticks 900),
        .act (.arrive serial (.received
          (if serial % 2 = 0 then ⟨0, 3000⟩ else .client) (ackOf 0)), {}),
        .act (.handle serial, {}), .act (.wake serial, {})]) ++
    timeOutOf 8

/-- The client sends nothing after its request, and each of the three further
sends takes a millisecond. -/
def silentClient : List (TimedInput (Occurrence × Environment)) :=
  firstBlock ++
    [3, 5, 7].flatMap (fun serial =>
      timeOutOf serial ++
        [.pass (ticks 1), .act (.arrive (serial + 1) (.sent false), {}),
          .act (.handle (serial + 1), {})]) ++
    timeOutOf 9

/-- Runs in which a download waits for the ACK of its first block and then
processes a time-out that the timer of its current entry caused. -/
theorem exists_timedOut_of_execute
    (entries : List (TimedInput (Occurrence × Environment)))
    (check : TimedStep → List TimedStep → TimedReactor → Bool)
    (checked : (timedReactor.execute 7 (entries.map TimedReactor.entry)
        (TimedReactor.started .loopback)).map
      (fun result => (List.range result.1.length).any fun index =>
        result.1[index]?.any fun step =>
          decide (.process .timedOut ∈ step.before.state.machine.tasks) &&
            decide (step.before.state.cause =
              .expiry step.before.state.entries) &&
            (result.1.take index)[8]?.any fun sent =>
              decide (TimedStep.StartsWait sent) &&
                check sent ((result.1.take index).drop 9) step.before) =
        some true) :
    ∃ past sent rest last,
      TimedReactor.Reaches .loopback (past ++ [sent]) sent.after ∧
        timedReactor.Run sent.after rest last ∧
        TimedStep.StartsWait sent ∧
        .process .timedOut ∈ last.state.machine.tasks ∧
        last.state.cause = .expiry last.state.entries ∧
        check sent rest last = true := by
  obtain ⟨history, last, run, passes⟩ := timedReactor.exists_run_of_execute
    (TimedReactor.started .loopback) 7 (entries.map TimedReactor.entry)
    (fun history last =>
      decide (.process .timedOut ∈ last.state.machine.tasks) &&
        decide (last.state.cause = .expiry last.state.entries) &&
        history[8]?.any fun sent => decide (TimedStep.StartsWait sent) &&
          check sent (history.drop 9) last) checked
  simp only [Bool.and_eq_true, decide_eq_true_eq] at passes
  obtain ⟨⟨timedOut, cause⟩, found⟩ := passes
  obtain ⟨past, sent, rest, before, after, passes⟩ := System.exists_split run 8
    (fun sent rest => decide (TimedStep.StartsWait sent) &&
      check sent rest last) found
  simp only [Bool.and_eq_true, decide_eq_true_eq] at passes
  exact ⟨past, sent, rest, last, before, after, passes.1, timedOut, cause,
    passes.2⟩

/-- A download whose deadline five ignored packets move, and one that is given
up after exactly four time-outs. -/
theorem time_outs_counted :
    (∃ past sent rest last,
      TimedReactor.Reaches .loopback (past ++ [sent]) sent.after ∧
        timedReactor.Run sent.after rest last ∧
        rest.countP TimedStep.ignores = 5 ∧
        last.now = lastHandled sent rest +
          ticks last.state.machine.data.timeOut) ∧
    ∃ past sent rest last,
      TimedReactor.Reaches .loopback (past ++ [sent]) sent.after ∧
        timedReactor.Run sent.after rest last ∧
        elapsed Reactor.receives rest =
          4 * ticks sent.after.state.machine.data.timeOut ∧
        last.now = sent.after.now + elapsed Reactor.receives rest +
          elapsed Reactor.sends rest ∧
        ∃ row ∈ enabledRows last.state.machine.state (some .timedOut)
            last.state.machine.data, row.action = .reset := by
  constructor
  · obtain ⟨past, sent, rest, last, before, run, starts, timedOut, cause,
      passes⟩ := exists_timedOut_of_execute strayPackets
        (fun _ rest _ =>
          (rest.all fun step => decide (TimedStep.OnlyIgnores step)) &&
            decide (rest.countP TimedStep.ignores = 5))
        (by decide +kernel)
    simp only [Bool.and_eq_true, List.all_eq_true, decide_eq_true_eq]
      at passes
    obtain ⟨only, five⟩ := passes
    obtain ⟨postponed, punctual, _⟩ := time_out_after_last_ignored before run
    obtain ⟨_, _, deadline⟩ := postponed past sent rfl starts only
    have now := (punctual timedOut).2.1 cause
    exact ⟨past, sent, rest, last, before, run, five, now.trans deadline⟩
  · obtain ⟨past, sent, rest, last, before, run, _, timedOut, _, passes⟩ :=
      exists_timedOut_of_execute silentClient
        (fun sent rest last =>
          decide (sent.after.state.machine.state.busy = true) &&
            (rest.all fun step => decide (TimedStep.Stalls step)) &&
            decide (4 * ticks sent.after.state.machine.data.timeOut ≤
              elapsed Reactor.receives rest) &&
            decide (last.state.machine.data.canRetry = false))
        (by decide +kernel)
    simp only [Bool.and_eq_true, List.all_eq_true, decide_eq_true_eq]
      at passes
    obtain ⟨⟨⟨busy, stalls⟩, long⟩, exhausted⟩ := passes
    obtain ⟨_, punctual, _, stalled⟩ := time_out_after_last_ignored before run
    obtain ⟨short, clock⟩ := stalled busy stalls
    obtain ⟨_, _, row, enabled, acts⟩ := punctual timedOut
    exact ⟨past, sent, rest, last, before, run, Nat.le_antisymm short long,
      clock, row, enabled, by simpa [exhausted] using acts⟩

/-- Ignored packets keep a session waiting for more than five time-outs, and
its time-out is processed at the expiry that the last of them set. -/
theorem ignored_packets_postpone :
    ∃ past sent rest last,
      TimedReactor.Reaches .loopback (past ++ [sent]) sent.after ∧
        timedReactor.Run sent.after rest last ∧
        TimedStep.StartsWait sent ∧
        (∀ step ∈ rest, TimedStep.OnlyIgnores step) ∧
        .process .timedOut ∈ last.state.machine.tasks ∧
        last.state.cause = .expiry last.state.entries ∧
        last.now ≠ sent.after.expiry ∧
        sent.after.now + 4 * ticks last.state.machine.data.timeOut <
          last.now := by
  obtain ⟨past, sent, rest, last, before, run, starts, timedOut, cause,
    passes⟩ := exists_timedOut_of_execute strayPackets
      (fun sent rest last =>
        (rest.all fun step => decide (TimedStep.OnlyIgnores step)) &&
          decide (last.now ≠ sent.after.expiry) &&
          decide (sent.after.now +
            4 * ticks last.state.machine.data.timeOut < last.now))
      (by decide +kernel)
  simp only [Bool.and_eq_true, List.all_eq_true, decide_eq_true_eq]
    at passes
  obtain ⟨⟨only, later⟩, beyond⟩ := passes
  exact ⟨past, sent, rest, last, before, run, starts, only, timedOut, cause,
    later, beyond⟩

end Examples

end MsmTftp
