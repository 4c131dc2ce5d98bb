import MsmTftp.TransitionSystem

/-!
# Systems with a clock and one timer

A reactive program is run against a clock.  It reacts at once: time passes
only in states in which it rests, and never beyond the expiry of a timer that
runs.  Some outputs set the expiry, relative to the time at which they happen,
and some inputs are the expiry of the timer, which happens no sooner than it
was set for.
-/

namespace TimedSystem

open TransitionSystem

/-- How a system uses its clock. -/
structure Timing (State Input Output : Type*) where
  /-- Nothing is left to do before something happens. -/
  rests : State → Bool
  /-- The timer runs. -/
  runs : State → Bool
  /-- The time an output sets the timer to. -/
  duration : Output → Option Nat
  /-- The input is the expiry of the timer. -/
  expires : Input → Bool

/-- A state with the time and the expiry that was set last. -/
structure Timed (State : Type*) where
  state : State
  now : Nat
  expiry : Nat

inductive TimedInput (Input : Type*)
  | pass (delay : Nat)
  | act (input : Input)

variable {State Input Output : Type*}

namespace TimedInput

def delay : TimedInput Input → Nat
  | pass delay => delay
  | act _ => 0

def act? : TimedInput Input → Option Input
  | pass _ => none
  | act input => some input

end TimedInput

namespace Timing

variable (timing : Timing State Input Output)

/-- The expiry after some outputs; the last one that sets it counts. -/
def set (now expiry : Nat) (outputs : List Output) : Nat :=
  match (outputs.filterMap timing.duration).getLast? with
  | some duration => now + duration
  | none => expiry

variable {timing}

theorem set_of_silent {now expiry : Nat} {outputs : List Output}
    (silent : outputs.filterMap timing.duration = []) :
    timing.set now expiry outputs = expiry := by
  simp [set, silent]

theorem set_of_armed {now expiry duration : Nat} {outputs : List Output}
    (armed : outputs.filterMap timing.duration = [duration]) :
    timing.set now expiry outputs = now + duration := by
  simp [set, armed]

end Timing

/-- The system run against a clock. -/
def timed (system : System State Input Output)
    (timing : Timing State Input Output) :
    System (Timed State) (TimedInput Input) Output where
  step before
    | .pass delay =>
        if timing.rests before.state = true ∧
            (timing.runs before.state = true →
              before.now + delay ≤ before.expiry) then
          some ({ before with now := before.now + delay }, [])
        else none
    | .act input =>
        if timing.expires input = true → before.expiry ≤ before.now then
          (system.step before.state input).map fun next =>
            ({ state := next.1
               now := before.now
               expiry := timing.set before.now before.expiry next.2 },
              next.2)
        else none

/-- What a step does to the clock. -/
inductive TimedCases (system : System State Input Output)
    (timing : Timing State Input Output) (before : Timed State) :
    TimedInput Input → List Output → Timed State → Prop
  | pass {delay : Nat} (rests : timing.rests before.state = true)
      (punctual : timing.runs before.state = true →
        before.now + delay ≤ before.expiry) :
      TimedCases system timing before (.pass delay) []
        { before with now := before.now + delay }
  | act {input : Input} {next : State} {outputs : List Output}
      (due : timing.expires input = true → before.expiry ≤ before.now)
      (stepped : system.step before.state input = some (next, outputs)) :
      TimedCases system timing before (.act input) outputs
        { state := next
          now := before.now
          expiry := timing.set before.now before.expiry outputs }

section Steps

variable {system : System State Input Output}
  {timing : Timing State Input Output} {before after : Timed State}

theorem timedCases {input : TimedInput Input} {outputs : List Output}
    (stepped : (timed system timing).step before input =
      some (after, outputs)) :
    TimedCases system timing before input outputs after := by
  cases input with
  | pass delay =>
      simp only [timed, Option.ite_none_right_eq_some, Option.some.injEq,
        Prod.mk.injEq] at stepped
      obtain ⟨⟨rests, punctual⟩, rfl, rfl⟩ := stepped
      exact .pass rests punctual
  | act input =>
      simp only [timed, Option.ite_none_right_eq_some,
        Option.map_eq_some_iff, Prod.mk.injEq] at stepped
      obtain ⟨due, ⟨next, _⟩, stepped, rfl, rfl⟩ := stepped
      exact .act due stepped

theorem TimedCases.of_admits {input : TimedInput Input}
    {outputs : List Output}
    (admitted : (timed system timing).Admits
      ⟨before, input, outputs, after⟩) :
    TimedCases system timing before input outputs after :=
  timedCases admitted

theorem step_pass {delay : Nat} (rests : timing.rests before.state = true)
    (punctual : timing.runs before.state = true →
      before.now + delay ≤ before.expiry) :
    (timed system timing).step before (.pass delay) =
      some ({ before with now := before.now + delay }, []) :=
  if_pos ⟨rests, punctual⟩

theorem step_act {input : Input} {next : State} {outputs : List Output}
    (due : timing.expires input = true → before.expiry ≤ before.now)
    (stepped : system.step before.state input = some (next, outputs)) :
    (timed system timing).step before (.act input) =
      some ({ state := next
              now := before.now
              expiry := timing.set before.now before.expiry outputs },
        outputs) := by
  simp only [timed, if_pos due, stepped, Option.map_some]

end Steps

section Runs

variable {system : System State Input Output}
  {timing : Timing State Input Output} {start finish : Timed State}
  {history : List (Transition (Timed State) (TimedInput Input) Output)}

/-- The steps of the system in a run against the clock. -/
def untimed
    (history : List (Transition (Timed State) (TimedInput Input) Output)) :
    List (Transition State Input Output) :=
  history.filterMap (System.project Timed.state fun _ => TimedInput.act?)

/-- Against the clock a system does what it does without. -/
theorem run_untimed (run : (timed system timing).Run start history finish) :
    system.Run start.state (untimed history) finish.state := by
  apply System.Run.project run Timed.state fun _ => TimedInput.act?
  · rintro ⟨before, input, outputs, after⟩ admitted passes
    cases TimedCases.of_admits admitted with
    | pass => rfl
    | act => simp [TimedInput.act?] at passes
  · rintro ⟨before, input, outputs, after⟩ other admitted acts
    cases TimedCases.of_admits admitted with
    | pass => simp [TimedInput.act?] at acts
    | act due stepped =>
        obtain rfl := Option.some.inj acts
        exact stepped

/-- Induction along a run against the clock, with an invariant of the system
at hand. -/
theorem timed_induction
    (run : (timed system timing).Run start history finish)
    (Sound : State → Prop) (sound : Sound start.state)
    (keeps : ∀ state input next outputs, Sound state →
      system.step state input = some (next, outputs) → Sound next)
    (Invariant :
      List (Transition (Timed State) (TimedInput Input) Output) →
        Timed State → Prop)
    (initially : Invariant [] start)
    (passes : ∀ past before delay, Sound before.state →
      Invariant past before → timing.rests before.state = true →
      (timing.runs before.state = true →
        before.now + delay ≤ before.expiry) →
      Invariant (past ++ [⟨before, .pass delay, [],
        { before with now := before.now + delay }⟩])
        { before with now := before.now + delay })
    (acts : ∀ past before input next outputs, Sound before.state →
      Invariant past before →
      (timing.expires input = true → before.expiry ≤ before.now) →
      system.step before.state input = some (next, outputs) →
      Invariant (past ++ [⟨before, .act input, outputs,
        { state := next
          now := before.now
          expiry := timing.set before.now before.expiry outputs }⟩])
        { state := next
          now := before.now
          expiry := timing.set before.now before.expiry outputs }) :
    Invariant history finish := by
  have invariant : Sound finish.state ∧ Invariant history finish := by
    apply run.history_invariant (fun _ => True) (fun _ _ => trivial)
      fun past timed => Sound timed.state ∧ Invariant past timed
    · exact ⟨sound, initially⟩
    · rintro past ⟨before, input, outputs, after⟩ ⟨sound, holds⟩ admitted -
      cases TimedCases.of_admits admitted with
      | pass rests punctual =>
          exact ⟨sound, passes past before _ sound holds rests punctual⟩
      | act due stepped =>
          exact ⟨keeps _ _ _ _ sound stepped,
            acts past before _ _ _ sound holds due stepped⟩
  exact invariant.2

/-- The time that passes during some steps in states of a kind. -/
def elapsed (kind : State → Bool) :
    List (Transition (Timed State) (TimedInput Input) Output) → Nat
  | [] => 0
  | step :: rest =>
      (if kind step.before.state then step.input.delay else 0) +
        elapsed kind rest

theorem elapsed_concat (kind : State → Bool)
    (history : List (Transition (Timed State) (TimedInput Input) Output))
    (step : Transition (Timed State) (TimedInput Input) Output) :
    elapsed kind (history ++ [step]) =
      elapsed kind history +
        if kind step.before.state then step.input.delay else 0 := by
  induction history with
  | nil => simp [elapsed]
  | cons first rest ih =>
      rw [List.cons_append, elapsed, ih, elapsed, Nat.add_assoc]

theorem elapsed_act (kind : State → Bool)
    (history : List (Transition (Timed State) (TimedInput Input) Output))
    (before after : Timed State) (input : Input) (outputs : List Output) :
    elapsed kind (history ++ [⟨before, .act input, outputs, after⟩]) =
      elapsed kind history := by
  simp [elapsed_concat, TimedInput.delay]

end Runs

end TimedSystem
