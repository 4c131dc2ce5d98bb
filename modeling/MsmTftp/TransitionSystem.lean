import Mathlib.Algebra.GroupWithZero.Nat
import Mathlib.Data.List.Induction
import Mathlib.Tactic.Common

/-!
# Input-driven transition systems and their runs

A reactive program is described by a partial step function: in a state, an
input is either refused or leads to one next state and a list of outputs.
Every choice the program leaves open is part of the input, so quantifying over
inputs quantifies over all behaviours while single runs stay executable.

This file develops runs, their invariants, simulations that drop some of the
inputs of a run, the projection of a more detailed system, bounds on what a
run costs, and the execution of scripts of inputs.
-/

namespace TransitionSystem

/-- A partial step function with outputs. -/
structure System (State Input Output : Type*) where
  step : State → Input → Option (State × List Output)

/-- One step of a run together with the states around it. -/
structure Transition (State Input Output : Type*) where
  before : State
  input : Input
  outputs : List Output
  after : State

variable {State Input Output : Type*}

namespace System

/-- The transition is one the step function takes. -/
def Admits (system : System State Input Output)
    (transition : Transition State Input Output) : Prop :=
  system.step transition.before transition.input =
    some (transition.after, transition.outputs)

/-- `history` leads from `start` to `finish`, one admitted transition after
the other. -/
def Run (system : System State Input Output) (start : State) :
    List (Transition State Input Output) → State → Prop
  | [], finish => start = finish
  | transition :: history, finish =>
      transition.before = start ∧ system.Admits transition ∧
        system.Run transition.after history finish

variable {system : System State Input Output}

@[simp]
theorem run_nil {start finish : State} :
    system.Run start [] finish ↔ start = finish :=
  Iff.rfl

@[simp]
theorem run_cons {start finish : State}
    {transition : Transition State Input Output}
    {history : List (Transition State Input Output)} :
    system.Run start (transition :: history) finish ↔
      transition.before = start ∧ system.Admits transition ∧
        system.Run transition.after history finish :=
  Iff.rfl

theorem run_append {start finish : State}
    {first second : List (Transition State Input Output)} :
    system.Run start (first ++ second) finish ↔
      ∃ middle, system.Run start first middle ∧
        system.Run middle second finish := by
  induction first generalizing start with
  | nil => simp
  | cons transition first ih =>
      simp only [List.cons_append, run_cons, ih]
      constructor
      · rintro ⟨starts, admitted, middle, before, after⟩
        exact ⟨middle, ⟨starts, admitted, before⟩, after⟩
      · rintro ⟨middle, ⟨starts, admitted, before⟩, after⟩
        exact ⟨starts, admitted, middle, before, after⟩

theorem run_concat {start finish : State}
    {history : List (Transition State Input Output)}
    {transition : Transition State Input Output} :
    system.Run start (history ++ [transition]) finish ↔
      system.Run start history transition.before ∧
        system.Admits transition ∧ transition.after = finish := by
  rw [run_append]
  constructor
  · rintro ⟨middle, run, starts, admitted, ends⟩
    exact ⟨starts ▸ run, admitted, ends⟩
  · rintro ⟨run, admitted, ends⟩
    exact ⟨transition.before, run, rfl, admitted, ends⟩

theorem Run.eq_nil_of_stuck {start finish : State}
    {history : List (Transition State Input Output)}
    (run : system.Run start history finish)
    (stuck : ∀ input, system.step start input = none) : history = [] := by
  cases history with
  | nil => rfl
  | cons transition history =>
      obtain ⟨rfl, admitted, _⟩ := run_cons.mp run
      rw [Admits, stuck] at admitted
      cases admitted

/-- A run can be cut around any of its transitions. -/
theorem run_split {start finish : State}
    {past rest : List (Transition State Input Output)}
    {transition : Transition State Input Output} :
    system.Run start (past ++ transition :: rest) finish ↔
      system.Run start past transition.before ∧
        system.Admits transition ∧
          system.Run transition.after rest finish := by
  rw [run_append]
  constructor
  · rintro ⟨middle, run, starts, admitted, continues⟩
    exact ⟨starts ▸ run, admitted, continues⟩
  · rintro ⟨run, admitted, continues⟩
    exact ⟨transition.before, run, rfl, admitted, continues⟩

/-- A property of the history and the state reached holds of every run when it
holds of the empty run and every transition that meets `condition` extends
it. -/
theorem Run.history_invariant {start finish : State}
    {history : List (Transition State Input Output)}
    (run : system.Run start history finish)
    (condition : Transition State Input Output → Prop)
    (meets : ∀ transition ∈ history, condition transition)
    (Invariant : List (Transition State Input Output) → State → Prop)
    (initially : Invariant [] start)
    (preserved : ∀ past transition, Invariant past transition.before →
      system.Admits transition → condition transition →
        Invariant (past ++ [transition]) transition.after) :
    Invariant history finish := by
  induction history using List.reverseRecOn generalizing finish with
  | nil =>
      obtain rfl := run_nil.mp run
      exact initially
  | append_singleton past transition ih =>
      obtain ⟨before, admitted, rfl⟩ := run_concat.mp run
      have earlier := ih before fun other member =>
        meets other (List.mem_append_left _ member)
      exact preserved past transition earlier admitted
        (meets transition (by simp))

/-- The state reached keeps an invariant that every admitted transition
meeting `condition` preserves. -/
theorem Run.invariant_of {start finish : State}
    {history : List (Transition State Input Output)}
    (run : system.Run start history finish)
    (condition : Transition State Input Output → Prop)
    (meets : ∀ transition ∈ history, condition transition)
    (Invariant : State → Prop) (initially : Invariant start)
    (preserved : ∀ transition, Invariant transition.before →
      system.Admits transition → condition transition →
        Invariant transition.after) :
    Invariant finish :=
  run.history_invariant condition meets (fun _ state => Invariant state)
    initially fun _ transition => preserved transition

theorem Run.invariant {start finish : State}
    {history : List (Transition State Input Output)}
    (run : system.Run start history finish)
    (Invariant : State → Prop) (initially : Invariant start)
    (preserved : ∀ transition, Invariant transition.before →
      system.Admits transition → Invariant transition.after) :
    Invariant finish :=
  run.invariant_of (fun _ => True) (fun _ _ => trivial) Invariant initially
    fun transition before admitted _ => preserved transition before admitted

/-- The states around every transition of a run satisfy an invariant, and the
transition is admitted. -/
theorem Run.transitions {start finish : State}
    {history : List (Transition State Input Output)}
    (run : system.Run start history finish)
    (Invariant : State → Prop) (initially : Invariant start)
    (preserved : ∀ transition, Invariant transition.before →
      system.Admits transition → Invariant transition.after)
    {transition : Transition State Input Output}
    (member : transition ∈ history) :
    Invariant transition.before ∧ system.Admits transition := by
  obtain ⟨past, rest, rfl⟩ := List.append_of_mem member
  obtain ⟨before, admitted, _⟩ := run_split.mp run
  exact ⟨before.invariant Invariant initially preserved, admitted⟩

/-- A run can be replayed from a related state, with the same inputs and
outputs, when every admitted transition can. -/
theorem Run.mirror {start finish other : State}
    {history : List (Transition State Input Output)}
    (run : system.Run start history finish)
    (Related : State → State → Prop) (related : Related start other)
    (mirrors : ∀ transition twin, Related transition.before twin →
      system.Admits transition →
        ∃ next, system.step twin transition.input =
            some (next, transition.outputs) ∧
          Related transition.after next) :
    ∃ replay last, system.Run other replay last ∧ Related finish last ∧
      replay.map Transition.input = history.map Transition.input ∧
      replay.map Transition.outputs =
        history.map Transition.outputs := by
  induction history generalizing start other with
  | nil =>
      obtain rfl := run_nil.mp run
      exact ⟨[], other, rfl, related, rfl, rfl⟩
  | cons transition history ih =>
      obtain ⟨rfl, admitted, continues⟩ := run_cons.mp run
      obtain ⟨next, stepped, after⟩ :=
        mirrors transition other related admitted
      obtain ⟨replay, last, replayed, ends, inputs, outputs⟩ :=
        ih continues after
      refine ⟨⟨other, transition.input, transition.outputs, next⟩ :: replay,
        last, ⟨rfl, stepped, replayed⟩, ends, ?_, ?_⟩
      · simp [inputs]
      · simp [outputs]

section Deletion

variable {Observation : Type*}

/-- A run can be replayed with some of its transitions left out: every kept
transition is matched by one with the same input and observations, every
dropped one has no observation and keeps the states related. -/
theorem Run.delete {start finish other : State}
    {history : List (Transition State Input Output)}
    (run : system.Run start history finish)
    (condition : Transition State Input Output → Prop)
    (meets : ∀ transition ∈ history, condition transition)
    (dropped : Transition State Input Output → Bool)
    (observe : Output → Option Observation)
    (Related : State → State → Prop) (related : Related start other)
    (keeps : ∀ transition twin, Related transition.before twin →
      system.Admits transition → condition transition →
        dropped transition = false →
          ∃ outputs next, system.step twin transition.input =
              some (next, outputs) ∧
            Related transition.after next ∧
              outputs.filterMap observe =
                transition.outputs.filterMap observe)
    (drops : ∀ transition twin, Related transition.before twin →
      system.Admits transition → condition transition →
        dropped transition = true →
          Related transition.after twin ∧
            transition.outputs.filterMap observe = []) :
    ∃ replay last, system.Run other replay last ∧ Related finish last ∧
      replay.map Transition.input =
        (history.filter fun transition => !dropped transition).map
          Transition.input ∧
      (replay.flatMap Transition.outputs).filterMap observe =
        (history.flatMap Transition.outputs).filterMap observe := by
  induction history generalizing start other with
  | nil =>
      obtain rfl := run_nil.mp run
      exact ⟨[], other, rfl, related, rfl, rfl⟩
  | cons transition history ih =>
      obtain ⟨rfl, admitted, continues⟩ := run_cons.mp run
      have here := meets transition (by simp)
      have later := fun member inside =>
        meets member (List.mem_cons_of_mem transition inside)
      cases drop : dropped transition with
      | true =>
          obtain ⟨after, silent⟩ :=
            drops transition other related admitted here drop
          obtain ⟨replay, last, replayed, ends, inputs, observed⟩ :=
            ih continues later after
          refine ⟨replay, last, replayed, ends, ?_, ?_⟩
          · simpa [drop] using inputs
          · simpa [silent] using observed
      | false =>
          obtain ⟨outputs, next, stepped, after, same⟩ :=
            keeps transition other related admitted here drop
          obtain ⟨replay, last, replayed, ends, inputs, observed⟩ :=
            ih continues later after
          refine ⟨⟨other, transition.input, outputs, next⟩ :: replay, last,
            ⟨rfl, stepped, replayed⟩, ends, ?_, ?_⟩
          · simpa [drop] using inputs
          · simpa [same] using observed

end Deletion

section Projection

variable {Detail Signal : Type*} {detailed : System Detail Signal Output}

/-- A transition of a more detailed system as seen through a view of its
states; `none` when it is not a transition of the viewed system. -/
def project (view : Detail → State)
    (translate : Detail → Signal → Option Input)
    (transition : Transition Detail Signal Output) :
    Option (Transition State Input Output) :=
  (translate transition.before transition.input).map fun input =>
    ⟨view transition.before, input, transition.outputs,
      view transition.after⟩

/-- A run of a more detailed system is a run of the viewed system with
stuttering: a transition that is not one of the viewed system keeps the
view. -/
theorem Run.project {start finish : Detail}
    {history : List (Transition Detail Signal Output)}
    (run : detailed.Run start history finish) (view : Detail → State)
    (translate : Detail → Signal → Option Input)
    (stutters : ∀ transition, detailed.Admits transition →
      translate transition.before transition.input = none →
        view transition.after = view transition.before)
    (simulates : ∀ transition input, detailed.Admits transition →
      translate transition.before transition.input = some input →
        system.step (view transition.before) input =
          some (view transition.after, transition.outputs)) :
    system.Run (view start)
      (history.filterMap (System.project view translate)) (view finish) := by
  induction history generalizing start with
  | nil =>
      obtain rfl := run_nil.mp run
      exact run_nil.mpr rfl
  | cons transition history ih =>
      obtain ⟨rfl, admitted, continues⟩ := run_cons.mp run
      have rest := ih continues
      cases translated : translate transition.before transition.input with
      | none =>
          rw [stutters transition admitted translated] at rest
          simpa [System.project, translated] using rest
      | some input =>
          have stepped : system.Admits
              ⟨view transition.before, input, transition.outputs,
                view transition.after⟩ :=
            simulates transition input admitted translated
          simp only [System.project, translated, Option.map_some,
            List.filterMap_cons]
          exact run_cons.mpr ⟨rfl, stepped, rest⟩

end Projection

section Simulation

variable {Abstract Move Event : Type*} {abstract : System Abstract Move Event}

/-- A run is simulated by a run of a more abstract system when every admitted
transition is matched by a run of that system, possibly an empty one. -/
theorem Run.simulated {start finish : State} {origin : Abstract}
    {history : List (Transition State Input Output)}
    (run : system.Run start history finish)
    (condition : Transition State Input Output → Prop)
    (meets : ∀ transition ∈ history, condition transition)
    (Related : List (Transition State Input Output) → State → Abstract → Prop)
    (related : Related [] start origin)
    (simulates : ∀ past transition trace twin,
      abstract.Run origin trace twin → Related past transition.before twin →
      system.Admits transition → condition transition →
        ∃ more next, abstract.Run twin more next ∧
          Related (past ++ [transition]) transition.after next) :
    ∃ trace last, abstract.Run origin trace last ∧
      Related history finish last := by
  apply run.history_invariant condition meets fun past state =>
    ∃ trace last, abstract.Run origin trace last ∧ Related past state last
  · exact ⟨[], origin, rfl, related⟩
  · rintro past transition ⟨trace, twin, reached, related⟩ admitted here
    obtain ⟨more, next, continues, after⟩ :=
      simulates past transition trace twin reached related admitted here
    exact ⟨trace ++ more, next, run_append.mpr ⟨twin, reached, continues⟩,
      after⟩

end Simulation

section Accounting

/-- What the transitions of a run cost is paid by the potential of its start
and the credit it receives on the way, when every single transition is. -/
theorem Run.cost_le {start finish : State}
    {history : List (Transition State Input Output)}
    (run : system.Run start history finish)
    (Invariant : State → Prop) (initially : Invariant start)
    (preserved : ∀ transition, Invariant transition.before →
      system.Admits transition → Invariant transition.after)
    (cost credit : Transition State Input Output → Nat)
    (potential : State → Nat)
    (paid : ∀ transition, Invariant transition.before →
      system.Admits transition →
        cost transition + potential transition.after ≤
          potential transition.before + credit transition) :
    (history.map cost).sum + potential finish ≤
      potential start + (history.map credit).sum := by
  induction history generalizing start with
  | nil =>
      obtain rfl := run_nil.mp run
      simp
  | cons transition history ih =>
      obtain ⟨rfl, admitted, continues⟩ := run_cons.mp run
      have here := paid transition initially admitted
      have later := ih continues (preserved transition initially admitted)
      simp only [List.map_cons, List.sum_cons]
      omega

end Accounting

section Execution

variable (system)

/-- Take the chosen inputs while there are any, at most `fuel` in all. -/
def exhaust (choose : State → Option Input) :
    Nat → State → Option (List (Transition State Input Output) × State)
  | 0, _ => none
  | fuel + 1, state =>
      match choose state with
      | none => some ([], state)
      | some input =>
          (system.step state input).bind fun next =>
            (exhaust choose fuel next.1).map fun result =>
              (⟨state, input, next.2, next.1⟩ :: result.1, result.2)

/-- Execute a script: every input is followed by the inputs chosen after
it. -/
def execute (fuel : Nat) :
    List (Input × (State → Option Input)) → State →
      Option (List (Transition State Input Output) × State)
  | [], state => some ([], state)
  | (input, choose) :: script, state =>
      (system.step state input).bind fun next =>
        (system.exhaust choose fuel next.1).bind fun settled =>
          (execute fuel script settled.2).map fun result =>
            (⟨state, input, next.2, next.1⟩ :: (settled.1 ++ result.1),
              result.2)

variable {system}

theorem run_of_exhaust {choose : State → Option Input} {fuel : Nat}
    {start finish : State} {history : List (Transition State Input Output)}
    (exhausted : system.exhaust choose fuel start = some (history, finish)) :
    system.Run start history finish := by
  induction fuel generalizing start history with
  | zero => simp [exhaust] at exhausted
  | succ fuel ih =>
      simp only [exhaust] at exhausted
      split at exhausted
      · simp only [Option.some.injEq, Prod.mk.injEq] at exhausted
        obtain ⟨rfl, rfl⟩ := exhausted
        rfl
      · simp only [Option.bind_eq_some_iff, Option.map_eq_some_iff,
          Prod.mk.injEq] at exhausted
        obtain ⟨⟨next, outputs⟩, stepped, ⟨rest, _⟩, continued, rfl,
          rfl⟩ := exhausted
        exact ⟨rfl, stepped, ih continued⟩

theorem run_of_execute {fuel : Nat}
    {script : List (Input × (State → Option Input))} {start finish : State}
    {history : List (Transition State Input Output)}
    (executed : system.execute fuel script start = some (history, finish)) :
    system.Run start history finish := by
  induction script generalizing start history with
  | nil =>
      simp only [execute, Option.some.injEq, Prod.mk.injEq] at executed
      obtain ⟨rfl, rfl⟩ := executed
      rfl
  | cons entry script ih =>
      obtain ⟨input, choose⟩ := entry
      simp only [execute, Option.bind_eq_some_iff, Option.map_eq_some_iff,
        Prod.mk.injEq] at executed
      obtain ⟨⟨next, outputs⟩, stepped, ⟨steps, middle⟩, settled,
        ⟨rest, _⟩, continued, rfl, rfl⟩ := executed
      exact ⟨rfl, stepped,
        run_append.mpr ⟨middle, run_of_exhaust settled, ih continued⟩⟩

theorem run_at {start finish : State} {index : Nat}
    {history : List (Transition State Input Output)}
    {transition : Transition State Input Output}
    (run : system.Run start history finish)
    (found : history[index]? = some transition) :
    system.Run start (history.take index) transition.before ∧
      system.Admits transition ∧
        system.Run transition.after (history.drop (index + 1)) finish := by
  obtain ⟨bound, here⟩ := List.getElem?_eq_some_iff.mp found
  rw [← List.take_append_drop index history,
    List.drop_eq_getElem_cons bound, here] at run
  exact run_split.mp run

/-- A check of a step and of what follows it splits a run there. -/
theorem exists_split {start finish : State}
    {history : List (Transition State Input Output)}
    (run : system.Run start history finish) (index : Nat)
    (check : Transition State Input Output →
      List (Transition State Input Output) → Bool)
    (checked : history[index]?.any
      (fun transition => check transition (history.drop (index + 1))) =
        true) :
    ∃ past transition rest,
      system.Run start (past ++ [transition]) transition.after ∧
        system.Run transition.after rest finish ∧
          check transition rest = true := by
  obtain ⟨transition, found, passes⟩ := (Option.any_eq_true _ _).mp checked
  obtain ⟨before, admitted, after⟩ := run_at run found
  exact ⟨history.take index, transition, history.drop (index + 1),
    run_concat.mpr ⟨before, admitted, rfl⟩, after, passes⟩

theorem exists_run_of_execute (start : State) (fuel : Nat)
    (script : List (Input × (State → Option Input)))
    (check : List (Transition State Input Output) → State → Bool)
    (checked : (system.execute fuel script start).map
      (fun result => (List.range result.1.length).any fun index =>
        result.1[index]?.any fun transition =>
          check (result.1.take index) transition.before) = some true) :
    ∃ history finish, system.Run start history finish ∧
      check history finish = true := by
  obtain ⟨⟨history, _⟩, executed, passes⟩ :=
    Option.map_eq_some_iff.mp checked
  have run := run_of_execute executed
  simp only [List.any_eq_true, Option.any_eq_true] at passes
  obtain ⟨index, _, transition, found, passes⟩ := passes
  exact ⟨history.take index, transition.before, (run_at run found).1, passes⟩

variable (system) in
/-- An execution comes to a state that passes a check. -/
def executesTo (fuel : Nat) (script : List (Input × (State → Option Input)))
    (check : List (Transition State Input Output) → State → Bool)
    (start : State) : Bool :=
  decide ((system.execute fuel script start).map
    (fun result => (List.range result.1.length).any fun index =>
      result.1[index]?.any fun transition =>
        check (result.1.take index) transition.before) = some true)

theorem exists_run_of_executesTo {start : State} {fuel : Nat}
    {script : List (Input × (State → Option Input))}
    {check : List (Transition State Input Output) → State → Bool}
    (executed : system.executesTo fuel script check start = true) :
    ∃ history finish, system.Run start history finish ∧
      check history finish = true :=
  exists_run_of_execute start fuel script check (of_decide_eq_true executed)

end Execution

end System

end TransitionSystem
