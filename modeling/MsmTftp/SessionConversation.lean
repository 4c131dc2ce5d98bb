import MsmTftp.SessionMachine

/-!
# Conversations

A conversation is a list of completions, each with the answers the operating
system gives to its handler.  It is executed with the rows tried in the order
of the table, which turns a list of packets into a run.
-/

namespace MsmTftp

open CellBuffer TransitionSystem

namespace Machine

/-- The next step of the running handler. -/
def pending (machine : Machine) (environment : Environment) : Option Input :=
  match enabledRows machine.state none machine.data, machine.tasks with
  | row :: _, _ => some (.fire row environment)
  | [], .parse _ :: _ => some .parse
  | [], .process event :: _ =>
      match enabledRows machine.state (some event.kind) machine.data with
      | row :: _ => some (.fire row environment)
      | [] => some .reject
  | [], [] => none

/-- Run a handler to its return, in at most `fuel` steps. -/
def runHandler (environment : Environment) :
    Nat → Machine → Option (List Step × Machine)
  | 0, _ => none
  | fuel + 1, machine =>
      match machine.pending environment with
      | none => some ([], machine)
      | some input =>
          (machine.step input).bind fun next =>
            (runHandler environment fuel next.1).map fun result =>
              (⟨machine, input, next.2, next.1⟩ :: result.1, result.2)

/-- Execute a conversation; no handler takes more than six steps. -/
def converse :
    Machine → List (Completion × Environment) →
      Option (List Step × Machine)
  | machine, [] => some ([], machine)
  | machine, (completion, environment) :: answers =>
      (machine.step (.complete completion)).bind fun next =>
        (runHandler environment 7 next.1).bind fun handled =>
          (handled.2.converse answers).map fun result =>
            (⟨machine, .complete completion, next.2, next.1⟩ ::
              (handled.1 ++ result.1), result.2)

end Machine

theorem run_of_runHandler {environment : Environment} {fuel : Nat}
    {machine finish : Machine} {history : List Step}
    (handled : machine.runHandler environment fuel = some (history, finish)) :
    session.Run machine history finish := by
  induction fuel generalizing machine history with
  | zero => simp [Machine.runHandler] at handled
  | succ fuel ih =>
      simp only [Machine.runHandler] at handled
      split at handled
      · simp only [Option.some.injEq, Prod.mk.injEq] at handled
        obtain ⟨rfl, rfl⟩ := handled
        rfl
      · simp only [Option.bind_eq_some_iff, Option.map_eq_some_iff,
          Prod.mk.injEq] at handled
        obtain ⟨⟨next, effects⟩, stepped, ⟨rest, last⟩, continued, rfl,
          rfl⟩ := handled
        exact ⟨rfl, stepped, ih continued⟩

theorem run_of_converse {answers : List (Completion × Environment)}
    {machine finish : Machine} {history : List Step}
    (conversed : machine.converse answers = some (history, finish)) :
    session.Run machine history finish := by
  induction answers generalizing machine history with
  | nil =>
      simp only [Machine.converse, Option.some.injEq, Prod.mk.injEq]
        at conversed
      obtain ⟨rfl, rfl⟩ := conversed
      rfl
  | cons answer answers ih =>
      obtain ⟨completion, environment⟩ := answer
      simp only [Machine.converse, Option.bind_eq_some_iff,
        Option.map_eq_some_iff, Prod.mk.injEq] at conversed
      obtain ⟨⟨next, effects⟩, stepped, ⟨steps, middle⟩, handled,
        ⟨rest, last⟩, continued, rfl, rfl⟩ := conversed
      exact ⟨rfl, stepped, System.run_append.mpr
        ⟨middle, run_of_runHandler handled, ih continued⟩⟩

/-- A check that succeeds at the end of a conversation with a started session
holds at the end of a run. -/
theorem exists_reaches_of_converse (config : Config)
    (answers : List (Completion × Environment))
    (check : List Step → Machine → Bool)
    (checked : ((Machine.started config).converse answers).map
      (fun result => check result.1 result.2) = some true) :
    ∃ history machine,
      (Machine.started config).converse answers = some (history, machine) ∧
        Reaches config history machine ∧ check history machine = true := by
  obtain ⟨⟨history, machine⟩, conversed, passes⟩ :=
    Option.map_eq_some_iff.mp checked
  exact ⟨history, machine, conversed, run_of_converse conversed, passes⟩

/-- A check that succeeds for some step of a conversation and the steps before
it holds for a step of a run. -/
theorem exists_step_of_converse (config : Config)
    (answers : List (Completion × Environment))
    (check : List Step → Step → Bool)
    (checked : ((Machine.started config).converse answers).map
      (fun result => (List.range result.1.length).any fun index =>
        result.1[index]?.any (check (result.1.take index))) = some true) :
    ∃ past step, Reaches config past step.before ∧ session.Admits step ∧
      check past step = true := by
  obtain ⟨history, _, _, run, passes⟩ := exists_reaches_of_converse config
    answers
    (fun history _ => (List.range history.length).any fun index =>
      history[index]?.any (check (history.take index))) checked
  simp only [List.any_eq_true, Option.any_eq_true] at passes
  obtain ⟨index, _, step, found, passes⟩ := passes
  obtain ⟨bound, here⟩ := List.getElem?_eq_some_iff.mp found
  rw [← List.take_append_drop index history,
    List.drop_eq_getElem_cons bound, here] at run
  obtain ⟨before, admitted, _⟩ := System.run_split.mp run
  exact ⟨history.take index, step, before, admitted, passes⟩

/-- A request of the client for a file named `f`. -/
def requestOf (opcode : OpCode) : Datagram where
  bytes := wordBytes opcode.value ++ asciiBytes ['f', '\x00'] ++
    kOctetMode ++ [0]
  fits := by simp [asciiBytes, kOctetMode]

/-- An ACK packet. -/
def ackOf (number : UInt16) : Datagram where
  bytes := Packet.ackPacket number
  fits := by simp

end MsmTftp
