import MsmTftp.TransitionSystem

/-!
# A system joined with a closer view of one of its parts

A part of a system may be described again together with surroundings of its
own, which the system does not know.  Joined, the two take the steps that
concern the part together and all other steps apart, so a run of the joined
system contains a run of either.
-/

namespace JoinedSystem

open TransitionSystem

/-- The inputs of two joined systems. -/
inductive Joint (Input Signal : Type*)
  /-- An input of the whole system. -/
  | whole (input : Input)
  /-- An input of the surroundings of the part. -/
  | apart (signal : Signal)

variable {State Detail Input Signal Output : Type*}

/-- The input of the whole system. -/
def Joint.input? : Joint Input Signal → Option Input
  | whole input => some input
  | apart _ => none

/-- The input of the part. -/
def Joint.signal? (concerns : Input → Option Signal) :
    Joint Input Signal → Option Signal
  | whole input => concerns input
  | apart signal => some signal

/-- An input that concerns the part is a step of both, with the same outputs.
The part takes only the other signals alone. -/
def join [DecidableEq Output] (whole : System State Input Output)
    (part : System Detail Signal Output) (concerns : Input → Option Signal)
    (alone : Signal → Bool) :
    System (State × Detail) (Joint Input Signal) Output where
  step state
    | .whole input =>
        (whole.step state.1 input).bind fun next =>
          match concerns input with
          | none => some ((next.1, state.2), next.2)
          | some signal =>
              (part.step state.2 signal).bind fun detail =>
                if detail.2 = next.2 then some ((next.1, detail.1), next.2)
                else none
    | .apart signal =>
        if alone signal then
          (part.step state.2 signal).map fun detail =>
            ((state.1, detail.1), detail.2)
        else none

abbrev JointStep (State Detail Input Signal Output : Type*) :=
  Transition (State × Detail) (Joint Input Signal) Output

/-- The steps of the whole system. -/
def wholeSteps
    (history : List (JointStep State Detail Input Signal Output)) :
    List (Transition State Input Output) :=
  history.filterMap (System.project Prod.fst fun _ => Joint.input?)

/-- The steps of the part. -/
def partSteps (concerns : Input → Option Signal)
    (history : List (JointStep State Detail Input Signal Output)) :
    List (Transition Detail Signal Output) :=
  history.filterMap
    (System.project Prod.snd fun _ => Joint.signal? concerns)

section Steps

variable {history : List (JointStep State Detail Input Signal Output)}
  {before after : State × Detail} {outputs : List Output}

theorem wholeSteps_concat_whole (input : Input) :
    wholeSteps (history ++ [⟨before, .whole input, outputs, after⟩]) =
      wholeSteps history ++ [⟨before.1, input, outputs, after.1⟩] := by
  simp [wholeSteps, System.project, Joint.input?]

theorem wholeSteps_concat_apart (signal : Signal) :
    wholeSteps (history ++ [⟨before, .apart signal, outputs, after⟩]) =
      wholeSteps history := by
  simp [wholeSteps, System.project, Joint.input?]

end Steps

section Cases

variable {whole : System State Input Output}
  {part : System Detail Signal Output} {concerns : Input → Option Signal}
  {alone : Signal → Bool} {state next : State} {detail after : Detail}
  {outputs : List Output}

/-- What a step of the joined systems does. -/
inductive JoinCases (whole : System State Input Output)
    (part : System Detail Signal Output) (concerns : Input → Option Signal)
    (alone : Signal → Bool) (state : State) (detail : Detail) :
    Joint Input Signal → List Output → State → Detail → Prop
  | both {input : Input} {signal : Signal} {outputs : List Output}
      {next : State} {after : Detail} (concerned : concerns input = some signal)
      (taken : whole.step state input = some (next, outputs))
      (follows : part.step detail signal = some (after, outputs)) :
      JoinCases whole part concerns alone state detail (.whole input) outputs
        next after
  | whole {input : Input} {outputs : List Output} {next : State}
      (elsewhere : concerns input = none)
      (taken : whole.step state input = some (next, outputs)) :
      JoinCases whole part concerns alone state detail (.whole input) outputs
        next detail
  | apart {signal : Signal} {outputs : List Output} {after : Detail}
      (own : alone signal = true)
      (follows : part.step detail signal = some (after, outputs)) :
      JoinCases whole part concerns alone state detail (.apart signal) outputs
        state after

theorem joinCases [DecidableEq Output] {joint : Joint Input Signal}
    (stepped : (join whole part concerns alone).step (state, detail) joint =
      some ((next, after), outputs)) :
    JoinCases whole part concerns alone state detail joint outputs next
      after := by
  cases joint with
  | whole input =>
      simp only [join, Option.bind_eq_some_iff] at stepped
      obtain ⟨⟨reached, effects⟩, taken, stepped⟩ := stepped
      split at stepped
      · rename_i elsewhere
        simp only [Option.some.injEq, Prod.mk.injEq] at stepped
        obtain ⟨⟨rfl, rfl⟩, rfl⟩ := stepped
        exact .whole elsewhere taken
      · rename_i signal concerned
        simp only [Option.bind_eq_some_iff, Option.ite_none_right_eq_some,
          Option.some.injEq, Prod.mk.injEq] at stepped
        obtain ⟨⟨_, _⟩, follows, rfl, ⟨rfl, rfl⟩, rfl⟩ := stepped
        exact .both concerned taken follows
  | apart signal =>
      simp only [join, Option.ite_none_right_eq_some, Option.map_eq_some_iff,
        Prod.mk.injEq] at stepped
      obtain ⟨own, ⟨_, _⟩, follows, ⟨rfl, rfl⟩, rfl⟩ := stepped
      exact .apart own follows

end Cases

section Runs

variable [DecidableEq Output] {whole : System State Input Output}
  {part : System Detail Signal Output} {concerns : Input → Option Signal}
  {alone : Signal → Bool} {start finish : State × Detail}
  {history : List (JointStep State Detail Input Signal Output)}

theorem run_whole
    (run : (join whole part concerns alone).Run start history finish) :
    whole.Run start.1 (wholeSteps history) finish.1 := by
  apply run.project Prod.fst fun _ => Joint.input?
  · rintro ⟨⟨state, detail⟩, joint, outputs, ⟨next, after⟩⟩ admitted silent
    cases joinCases admitted with
    | both => cases silent
    | whole => cases silent
    | apart => rfl
  · rintro ⟨⟨state, detail⟩, joint, outputs, ⟨next, after⟩⟩ input admitted
      same
    cases joinCases admitted with
    | both concerned taken follows =>
        obtain rfl := Option.some.inj same
        exact taken
    | whole elsewhere taken =>
        obtain rfl := Option.some.inj same
        exact taken
    | apart => cases same

theorem run_part
    (run : (join whole part concerns alone).Run start history finish) :
    part.Run start.2 (partSteps concerns history) finish.2 := by
  apply run.project Prod.snd fun _ => Joint.signal? concerns
  · rintro ⟨⟨state, detail⟩, joint, outputs, ⟨next, after⟩⟩ admitted silent
    cases joinCases admitted with
    | both concerned => cases concerned.symm.trans silent
    | whole => rfl
    | apart => cases silent
  · rintro ⟨⟨state, detail⟩, joint, outputs, ⟨next, after⟩⟩ signal admitted
      same
    cases joinCases admitted with
    | both concerned taken follows =>
        obtain rfl := Option.some.inj (concerned.symm.trans same)
        exact follows
    | whole elsewhere => cases elsewhere.symm.trans same
    | apart own follows =>
        obtain rfl := Option.some.inj same
        exact follows

/-- A step of the part is one of the whole system that concerns it, or its
surroundings take it. -/
theorem mem_partSteps
    (run : (join whole part concerns alone).Run start history finish)
    {step : Transition Detail Signal Output}
    (member : step ∈ partSteps concerns history) :
    (∃ input, concerns input = some step.input ∧
      ∃ other ∈ wholeSteps history, other.input = input) ∨
    alone step.input = true := by
  obtain ⟨joint, inside, projected⟩ := List.mem_filterMap.mp member
  obtain ⟨signal, same, rfl⟩ := Option.map_eq_some_iff.mp projected
  have admitted := (run.transitions (fun _ => True) trivial
    (fun _ _ _ => trivial) inside).2
  obtain ⟨⟨state, detail⟩, taken, outputs, ⟨next, after⟩⟩ := joint
  cases taken with
  | whole input =>
      exact .inl ⟨input, same, ⟨state, input, outputs, next⟩,
        List.mem_filterMap.mpr ⟨_, inside, rfl⟩, rfl⟩
  | apart other =>
      obtain rfl := Option.some.inj same
      have stepped : (join whole part concerns alone).step (state, detail)
          (.apart other) = some ((next, after), outputs) := admitted
      cases joinCases stepped with
      | apart own follows => exact .inr own

end Runs

end JoinedSystem
