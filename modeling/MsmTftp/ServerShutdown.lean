import Mathlib.Algebra.Order.BigOperators.Group.Finset
import MsmTftp.ServerFiles
import MsmTftp.SessionTraffic

/-!
# A server that is stopped

`Stop` cancels the receives of the listener and gives the listener up.  The
transfers under way go on, every session enters `Accepting` at most once more
before nothing is left for it to do, and the handlers that the server runs
until then are bounded by the datagrams its clients still send.
-/

namespace MsmTftp

open CellBuffer FileStore TransitionSystem

/-- A server that may still hold its listener. -/
structure ListeningServer (Session File : Type*) extends
    TftpServer Session File where
  listenerSocket : Bool

/-- What happens to a server. -/
inductive ServerEvent (Session : Type*)
  | run (input : ServerInput Session)
  | stop

/-- The listener of a session does not lock any more. -/
def Machine.stopped (machine : Machine) : Machine :=
  { machine with data := { machine.data with listenerSocket := false } }

/-- The configuration of a server without a listener. -/
def Config.stopped (config : Config) : Config :=
  { config with listenerSocket := false }

section Model

variable {Session File : Type*} [DecidableEq Session] [DecidableEq File]

namespace ListeningServer

/-- `Stop` calls through the listener it gives up, so there is no second
one.  A receive of the listener completes with an error when it is cancelled,
or with the datagram it had already received. -/
def step (locate : Bytes → File) (server : ListeningServer Session File) :
    ServerEvent Session →
      Option (ListeningServer Session File × List Effect)
  | .run input =>
      (server.toTftpServer.step locate input).map fun next =>
        ({ server with toTftpServer := next.1 }, next.2)
  | .stop =>
      if server.listenerSocket then
        some ({
          machines := fun session => (server.machines session).stopped
          store := server.store
          listenerSocket := false }, [])
      else none

/-- A server whose constructor has opened the listener, after `Start`. -/
def started (config : Config) (files : File → Bytes) :
    ListeningServer Session File where
  toTftpServer := TftpServer.started { config with listenerSocket := true }
    files
  listenerSocket := true

end ListeningServer

/-- The transition system of a server that can be stopped. -/
def listeningServer (locate : Bytes → File) :
    System (ListeningServer Session File) (ServerEvent Session) Effect where
  step := ListeningServer.step locate

end Model

abbrev ShutdownStep (Session File : Type*) :=
  Transition (ListeningServer Session File) (ServerEvent Session) Effect

/-- The session that takes a step, and its input. -/
def ServerEvent.taken? {Session : Type*} :
    ServerEvent Session → Option (Session × Input)
  | run (.step session input) => some (session, input)
  | run (.drain _ _) | stop => none

/-- The input is the completion of a receive of the listener. -/
def Input.completesListener : Input → Bool
  | complete completion =>
      decide (completion.operation = .listenerReceive)
  | _ => false

namespace ShutdownStep

variable {Session File : Type*}

/-- A session takes a step. -/
def runs (step : ShutdownStep Session File) : Bool :=
  step.input.taken?.isSome

/-- A session is handed a datagram. -/
def brings (step : ShutdownStep Session File) : Bool :=
  step.input.taken?.any fun taken => taken.2.brings

/-- A session is handed the end of its receive on the listener. -/
def completesListener [DecidableEq Session] (session : Session)
    (step : ShutdownStep Session File) : Bool :=
  step.input.taken?.any fun taken =>
    decide (taken.1 = session) && taken.2.completesListener

end ShutdownStep

/-- The session waits for its listener. -/
def Machine.awaitsListener (machine : Machine) : Bool :=
  machine.outstanding.contains .listenerReceive

/-- The steps that a session without a listener takes on its own: the receive
it may still wait for fails, and its handler has two more steps. -/
def Machine.shutdownLeft (machine : Machine) : Nat :=
  machine.stepsLeft + if machine.awaitsListener then 3 else 0

section Sessions

variable {config : Config} {machine next : Machine} {input : Input}
  {effects : List Effect}

theorem Machine.WellFormed.stopped (wellFormed : machine.WellFormed config) :
    machine.stopped.WellFormed config.stopped := by
  obtain ⟨configured, shape, rested, pristine, socketOpen⟩ := wellFormed
  refine ⟨?_, shape, fun rests => ?_, fun accepts => ?_, socketOpen⟩
  · rw [← configured]
    rfl
  · have before := rested rests
    rw [SessionData.Rested] at before ⊢
    rw [Machine.stopped, before]
    rfl
  · have before := pristine accepts
    rw [SessionData.Pristine] at before ⊢
    rw [Machine.stopped, before]
    rfl

theorem Machine.WellFormed.outstanding_complete {completion : Completion}
    (wellFormed : machine.WellFormed config)
    (stepped : machine.step (.complete completion) =
      some (next, effects)) :
    machine.outstanding = [completion.operation] ∧ next.outstanding = [] := by
  cases stepCases stepped with
  | complete settled idle started =>
      have only := (wellFormed.drives idle started).2
      exact ⟨only, by simp [only]⟩

/-- Without a listener a session waits for it only while it still does, and
its receive completes once. -/
theorem Machine.WellFormed.awaitsListener_le
    (wellFormed : machine.WellFormed config)
    (stopped : config.listenerSocket = false)
    (stepped : machine.step input = some (next, effects)) :
    (if input.completesListener then 1 else 0) +
        (if next.awaitsListener then 1 else 0) ≤
      if machine.awaitsListener then 1 else 0 := by
  cases input with
  | complete completion =>
      obtain ⟨only, none⟩ := wellFormed.outstanding_complete stepped
      cases completion <;>
        simp [Machine.awaitsListener, only, none, Input.completesListener,
          Completion.operation]
  | parse =>
      cases stepCases stepped with
      | parse settled running => simp [Machine.awaitsListener,
          Input.completesListener]
  | reject =>
      cases stepCases stepped with
      | reject settled running refused => simp [Machine.awaitsListener,
          Input.completesListener]
  | fire row environment =>
      obtain ⟨event, exitEffects, cases⟩ := wellFormed.fireCases stepped
      have deaf : (row.action.run environment event
          machine.data).1.listenerSocket = false := by
        have kept : (row.action.run environment event
            machine.data).1.config = config :=
          run_config.trans wellFormed.configured
        exact (congrArg Config.listenerSocket kept).trans stopped
      have never : next.awaitsListener = false := by
        rw [Machine.awaitsListener, cases.next_eq, Machine.entering,
          entry_operations, deaf]
        cases row.target <;> simp [State.operation]
      simp [never, Input.completesListener]

theorem Machine.WellFormed.idle_of_awaitsListener
    (wellFormed : machine.WellFormed config)
    (awaits : machine.awaitsListener = true) :
    machine.state = .accepting ∧ machine.tasks = [] := by
  have shape := wellFormed.shape
  rw [awaitsListener, List.contains_iff_mem] at awaits
  generalize machine.state = state at shape ⊢
  generalize machine.outstanding = outstanding at shape awaits
  generalize machine.tasks = tasks at shape ⊢
  cases shape with
  | waiting drives =>
      rw [List.mem_singleton] at awaits
      subst awaits
      exact ⟨State.eq_accepting drives, rfl⟩
  | _ => simp at awaits

theorem Machine.WellFormed.shutdownLeft_le
    (wellFormed : machine.WellFormed config) : machine.shutdownLeft ≤ 22 := by
  cases awaits : machine.awaitsListener with
  | true =>
      obtain ⟨accepts, idle⟩ := wellFormed.idle_of_awaitsListener awaits
      simp [shutdownLeft, awaits, stepsLeft, idle, accepts, State.stepsBefore,
        State.stepsLeft]
  | false => simpa [shutdownLeft, awaits] using machine.stepsLeft_le

theorem Input.eq_acceptFailed (prompts : input.prompts = true)
    (brings : input.brings = false) : input = .complete .acceptFailed := by
  cases input with
  | complete completion =>
      cases completion <;> simp_all [Input.prompts, Input.brings]
  | _ => simp [Input.prompts] at prompts

theorem Machine.WellFormed.shutdown_lt
    (wellFormed : machine.WellFormed config)
    (stopped : config.listenerSocket = false)
    (stepped : machine.step input = some (next, effects)) :
    next.shutdownLeft <
      machine.shutdownLeft + if input.brings then 23 else 0 := by
  have spent := wellFormed.steps_lt stepped
  have atMost := (wellFormed.step stepped).shutdownLeft_le
  have awaits := wellFormed.awaitsListener_le stopped stepped
  cases brings : input.brings with
  | true =>
      simp only [if_true]
      omega
  | false =>
      cases prompts : input.prompts with
      | false =>
          rw [prompts] at spent
          simp only [shutdownLeft, Bool.false_eq_true, if_false,
            Nat.add_zero] at spent ⊢
          split <;> split <;> simp_all
          omega
      | true =>
          obtain rfl := Input.eq_acceptFailed prompts brings
          obtain ⟨only, none⟩ := wellFormed.outstanding_complete stepped
          have before : 3 ≤ machine.shutdownLeft := by
            simp [shutdownLeft, awaitsListener, only, Completion.operation]
          have after : next.shutdownLeft = 2 := by
            cases stepCases stepped with
            | complete settled idle started =>
                simp [shutdownLeft, awaitsListener, stepsLeft, only,
                  Completion.start, Completion.operation, State.stepsBefore,
                  Event.kind]
          omega

/-- There is nothing left for a session to do, or its handler has thrown. -/
def Machine.Ended (machine : Machine) : Prop :=
  machine.state = .accepting ∧ machine.tasks = [] ∧
      machine.outstanding = [] ∨
    machine.tasks = [.process .packetSent] ∧ machine.data.socketOpen = false

theorem Machine.WellFormed.ended (wellFormed : machine.WellFormed config)
    (stuck : ∀ input, input.brings = false → machine.step input = none) :
    machine.Ended := by
  have rests : machine.Rests := wellFormed.rests fun input unprompted =>
    stuck input (Input.brings_eq_false unprompted)
  rcases rests with ⟨accepts, idle⟩ | thrown
  · refine .inl ⟨accepts, idle, ?_⟩
    have aborts := stuck (.complete .acceptFailed) rfl
    have waits : Operation.listenerReceive ∉ machine.outstanding := by
      simpa [Machine.step, returned_iff, accepts, idle, State.operation,
        Completion.operation] using aborts
    have shape := wellFormed.shape
    rw [accepts, idle] at shape
    generalize machine.outstanding = outstanding at shape waits
    cases shape with
    | waiting drives =>
        simp only [State.operation, Option.some.injEq] at drives
        subst drives
        simp at waits
    | _ => rfl
  · exact .inr thrown

theorem Machine.Ended.stuck (ended : machine.Ended)
    (wellFormed : machine.WellFormed config)
    (silent : input.brings = false) : machine.step input = none := by
  cases prompts : input.prompts with
  | false =>
      refine Machine.Rests.stuck (ended.imp_left ?_) wellFormed prompts
      exact fun ⟨accepts, idle, _⟩ => ⟨accepts, idle⟩
  | true =>
      obtain rfl := Input.eq_acceptFailed prompts silent
      rcases ended with ⟨_, _, nothing⟩ | ⟨sent, _⟩
      · simp [Machine.step, nothing]
      · simp [Machine.step, Machine.returned, sent]

end Sessions

section Servers

variable {Session File : Type*} {config : Config}
  {server before after : ListeningServer Session File}

/-- The sessions agree with the server on the listener. -/
def ListeningServer.WellFormed (config : Config)
    (server : ListeningServer Session File) : Prop :=
  server.toTftpServer.WellFormed
    { config with listenerSocket := server.listenerSocket }

/-- Nothing is left to do in a session: no operation is outstanding, the data
socket and the file are closed.  Otherwise its handler has thrown because the
data socket could not be opened. -/
def ListeningServer.Drained (server : ListeningServer Session File)
    (session : Session) : Prop :=
  (server.machines session).Ended ∧
    (server.machines session).data.socketOpen = false ∧
      ((server.machines session).state = .accepting →
        server.store.handles session = none)

/-- A server that was stopped. -/
structure ListeningServer.Stopped (config : Config)
    (server : ListeningServer Session File) : Prop where
  wellFormed : server.WellFormed config
  deaf : server.listenerSocket = false

/-- A session that cannot move on its own has drained. -/
theorem ListeningServer.WellFormed.drained
    (wellFormed : server.WellFormed config) {session : Session}
    (stuck : ∀ input, input.brings = false →
      (server.machines session).step input = none) :
    server.Drained session := by
  have ended := (wellFormed.machines session).ended stuck
  refine ⟨ended, ?_, (wellFormed.fits session).closed⟩
  rcases ended with ⟨accepts, _, _⟩ | ⟨_, closed⟩
  · have pristine := (wellFormed.machines session).pristine accepts
    rw [SessionData.Pristine] at pristine
    rw [pristine]
    rfl
  · exact closed

variable [DecidableEq Session] [DecidableEq File] {locate : Bytes → File}
  {event : ServerEvent Session} {effects : List Effect}

/-- What happens to a server: a session takes a step, a stream writes out, or
the server is stopped. -/
inductive ShutdownCases (locate : Bytes → File)
    (server : ListeningServer Session File) :
    ServerEvent Session → List Effect → ListeningServer Session File → Prop
  | step {session : Session} {input : Input} {next : Machine}
      {effects : List Effect}
      {after : ListeningServer Session File}
      (stepped : (server.machines session).step input =
        some (next, effects))
      (machines : after.machines =
        Function.update server.machines session next)
      (listener : after.listenerSocket = server.listenerSocket) :
      ShutdownCases locate server (.run (.step session input)) effects after
  | drain {session : Session} {count : Nat}
      {after : ListeningServer Session File}
      (machines : after.machines = server.machines)
      (listener : after.listenerSocket = server.listenerSocket) :
      ShutdownCases locate server (.run (.drain session count)) [] after
  | stop (listens : server.listenerSocket = true) :
      ShutdownCases locate server .stop []
        { machines := fun session => (server.machines session).stopped
          store := server.store
          listenerSocket := false }

theorem shutdownCases
    (stepped : before.step locate event = some (after, effects)) :
    ShutdownCases locate before event effects after := by
  cases event with
  | run input =>
      simp only [ListeningServer.step, Option.map_eq_some_iff,
        Prod.mk.injEq] at stepped
      obtain ⟨⟨next, _⟩, taken, rfl, rfl⟩ := stepped
      cases serverCases taken with
      | step stepped => exact .step stepped rfl rfl
      | drain => exact .drain rfl rfl
  | stop =>
      simp only [ListeningServer.step, Option.ite_none_right_eq_some,
        Option.some.injEq, Prod.mk.injEq] at stepped
      obtain ⟨listens, rfl, rfl⟩ := stepped
      exact .stop listens

theorem ListeningServer.WellFormed.step
    (wellFormed : before.WellFormed config)
    (stepped : before.step locate event = some (after, effects)) :
    after.WellFormed config := by
  cases event with
  | run input =>
      simp only [ListeningServer.step, Option.map_eq_some_iff,
        Prod.mk.injEq] at stepped
      obtain ⟨⟨next, _⟩, taken, rfl, rfl⟩ := stepped
      exact TftpServer.WellFormed.step wellFormed taken
  | stop =>
      simp only [ListeningServer.step, Option.ite_none_right_eq_some,
        Option.some.injEq, Prod.mk.injEq] at stepped
      obtain ⟨listens, rfl, rfl⟩ := stepped
      obtain ⟨machines, fits⟩ := wellFormed
      exact ⟨fun session => (machines session).stopped, fun session =>
        ⟨(fits session).isOpen, (fits session).busy, (fits session).reads⟩⟩

theorem ListeningServer.Stopped.step (stopped : before.Stopped config)
    (stepped : before.step locate event = some (after, effects)) :
    after.Stopped config := by
  refine ⟨stopped.wellFormed.step stepped, ?_⟩
  cases shutdownCases stepped with
  | step taken machines listener => exact listener.trans stopped.deaf
  | drain machines listener => exact listener.trans stopped.deaf
  | stop listens => rfl

variable [Fintype Session]

theorem sum_update (weight : Machine → Nat) (machines : Session → Machine)
    (session : Session) (next : Machine) :
    (∑ other, weight (Function.update machines session next other)) +
        weight (machines session) =
      (∑ other, weight (machines other)) + weight next := by
  have split (weights : Session → Nat) : ∑ other, weights other =
      weights session + ∑ other ∈ Finset.univ.erase session, weights other :=
    (Finset.add_sum_erase _ weights (Finset.mem_univ session)).symm
  have rest : ∑ other ∈ Finset.univ.erase session,
        weight (Function.update machines session next other) =
      ∑ other ∈ Finset.univ.erase session, weight (machines other) := by
    refine Finset.sum_congr rfl fun other member => ?_
    rw [Function.update_of_ne (Finset.ne_of_mem_erase member)]
  rw [split fun other => weight (Function.update machines session next other),
    split fun other => weight (machines other), rest, Function.update_self]
  omega

/-- The steps that the sessions of a stopped server take on their own. -/
def ListeningServer.shutdownLeft (server : ListeningServer Session File) :
    Nat :=
  ∑ session, (server.machines session).shutdownLeft

theorem ListeningServer.Stopped.shutdown_le
    (stopped : before.Stopped config)
    (stepped : before.step locate event = some (after, effects)) :
    (if ShutdownStep.runs ⟨before, event, effects, after⟩ then 1 else 0) +
        after.shutdownLeft ≤
      before.shutdownLeft +
        if ShutdownStep.brings ⟨before, event, effects, after⟩ then 23
        else 0 := by
  cases shutdownCases stepped with
  | @step session input next _ _ taken machines listener =>
      have spent := (stopped.wellFormed.machines session).shutdown_lt
        stopped.deaf taken
      have moved := sum_update Machine.shutdownLeft before.machines session
        next
      rw [← machines] at moved
      cases brings : input.brings <;>
        simp only [brings, shutdownLeft, ShutdownStep.runs,
          ShutdownStep.brings, ServerEvent.taken?, Option.isSome_some,
          if_true, Option.any_some, Bool.false_eq_true, if_false] at spent ⊢
        <;> omega
  | drain machines listener =>
      simp [shutdownLeft, machines, ShutdownStep.runs, ServerEvent.taken?]
  | stop listens => simp [stopped.deaf] at listens

omit [Fintype Session] in
/-- A stopped server completes the receive of a session on its listener once
at most. -/
theorem ListeningServer.Stopped.awaits_le
    (stopped : before.Stopped config)
    (stepped : before.step locate event = some (after, effects))
    (session : Session) :
    (if ShutdownStep.completesListener session
          ⟨before, event, effects, after⟩ then 1 else 0) +
        (if (after.machines session).awaitsListener then 1 else 0) ≤
      if (before.machines session).awaitsListener then 1 else 0 := by
  cases shutdownCases stepped with
  | @step other input next _ _ taken machines listener =>
      by_cases same : other = session
      · subst same
        simpa [ShutdownStep.completesListener, ServerEvent.taken?, machines]
          using (stopped.wellFormed.machines other).awaitsListener_le
            stopped.deaf taken
      · simp [ShutdownStep.completesListener, ServerEvent.taken?, machines,
          same, Function.update_of_ne (Ne.symm same)]
  | drain machines listener =>
      simp [ShutdownStep.completesListener, ServerEvent.taken?, machines]
  | stop listens => simp [stopped.deaf] at listens

variable {history : List (ShutdownStep Session File)}

theorem ListeningServer.Stopped.steps_bounded
    (stopped : before.Stopped config)
    (run : (listeningServer locate).Run before history after) :
    history.countP ShutdownStep.runs + after.shutdownLeft ≤
      before.shutdownLeft + 23 * history.countP ShutdownStep.brings := by
  have paid := run.cost_le (ListeningServer.Stopped config) stopped
    (fun _ before admitted => before.step admitted)
    (fun step => if ShutdownStep.runs step then 1 else 0)
    (fun step => if ShutdownStep.brings step then 23 else 0)
    ListeningServer.shutdownLeft
    fun _ before admitted => before.shutdown_le admitted
  rw [sum_credit, sum_credit] at paid
  omega

omit [Fintype Session] in
theorem ListeningServer.Stopped.completions_le
    (stopped : before.Stopped config)
    (run : (listeningServer locate).Run before history after)
    (session : Session) :
    history.countP (ShutdownStep.completesListener session) ≤ 1 := by
  have paid := run.cost_le (ListeningServer.Stopped config) stopped
    (fun _ before admitted => before.step admitted)
    (fun step =>
      if ShutdownStep.completesListener session step then 1 else 0)
    (fun _ => 0)
    (fun server =>
      if (server.machines session).awaitsListener then 1 else 0)
    fun _ before admitted => before.awaits_le admitted session
  rw [sum_credit] at paid
  simp only [List.map_const', List.sum_replicate, nsmul_zero] at paid
  have once : (if (before.machines session).awaitsListener then 1 else 0) ≤
      1 := by
    split <;> omega
  omega

end Servers

/-- After `Stop` the sessions of a server take at most 22 steps each, and 23
for each datagram that still arrives; each completes its receive on the
listener once at most.  Only a datagram could go on exactly when nothing is
left to do in any session. -/
theorem stopped_server_drains {Session File : Type*} [DecidableEq Session]
    [DecidableEq File] [Fintype Session] (locate : Bytes → File)
    (config : Config) (files : File → Bytes)
    (history : List (ShutdownStep Session File))
    (server : ListeningServer Session File)
    (run : (listeningServer locate).Run
      (ListeningServer.started config files) history server)
    (stopped : server.listenerSocket = false)
    (rest : List (ShutdownStep Session File))
    (last : ListeningServer Session File)
    (continues : (listeningServer locate).Run server rest last) :
    rest.countP ShutdownStep.runs ≤
        22 * Fintype.card Session + 23 * rest.countP ShutdownStep.brings ∧
      (∀ session,
        rest.countP (ShutdownStep.completesListener session) ≤ 1) ∧
      ((∀ session input, input.brings = false →
          last.step locate (.run (.step session input)) = none) ↔
        ∀ session, last.Drained session) := by
  have wellFormed : server.WellFormed config :=
    run.invariant (ListeningServer.WellFormed config)
      (TftpServer.started_wellFormed _ files)
      fun _ before admitted => before.step admitted
  have lastWellFormed : last.WellFormed config :=
    continues.invariant (ListeningServer.WellFormed config) wellFormed
      fun _ before admitted => before.step admitted
  have stopped : server.Stopped config := ⟨wellFormed, stopped⟩
  refine ⟨?_, stopped.completions_le continues, fun stuck session => ?_,
    fun drained session input silent => ?_⟩
  · have paid := stopped.steps_bounded continues
    have atMost : server.shutdownLeft ≤ Fintype.card Session * 22 :=
      Finset.sum_le_card_nsmul Finset.univ _ 22 fun session _ =>
        (wellFormed.machines session).shutdownLeft_le
    omega
  · apply lastWellFormed.drained
    intro input silent
    simpa [ListeningServer.step, TftpServer.step] using
      stuck session input silent
  · have none := (drained session).1.stuck (lastWellFormed.machines session)
      silent
    simp [ListeningServer.step, TftpServer.step, none]

section Examples

/-- Events of a server, each with the answers of the operating system to the
handler it starts. -/
def ListeningServer.script {Session File : Type*}
    (entries : List (ServerEvent Session × Environment)) :
    List (ServerEvent Session ×
      (ListeningServer Session File → Option (ServerEvent Session))) :=
  entries.map fun entry =>
    (entry.1, fun server =>
      entry.1.taken?.bind fun taken =>
        ((server.machines taken.1).pending entry.2).map fun input =>
          .run (.step taken.1 input))

/-- A server with two sessions is stopped while one of them sends a file. -/
def stopWhileSending : List (ServerEvent Bool × Environment) :=
  [(.run (.step true (.complete (.accepted .client
      (requestOf .readRequest)))), {}),
    (.stop, {}), (.run (.drain true 0), {})]

/-- The receive on the listener fails, and the client is not heard of again.
-/
def unwind : List (ServerEvent Bool × Environment) :=
  let own completion := (ServerEvent.run (.step true (.complete completion)),
    {})
  [(.run (.step false (.complete .acceptFailed)), {}),
    own (.sent false), own .receiveFailed, own (.sent false),
    own .receiveFailed, own (.sent false), own .receiveFailed,
    own (.sent false), own .receiveFailed, (.run (.drain true 0), {})]

/-- Every session has gone back to `Accepting` without another datagram. -/
def checkDrained (history : List (ShutdownStep Bool Bytes))
    (server : ListeningServer Bool Bytes) : Bool :=
  history.all (fun step => !ShutdownStep.brings step) &&
    decide (∀ session : Bool,
      (server.machines session).state = .accepting ∧
        (server.machines session).tasks = [] ∧
        (server.machines session).outstanding = [] ∧
        (server.machines session).data.socketOpen = false ∧
        (server.store.handles session).isNone = true)

/-- A server that is stopped while it sends a file comes to rest. -/
theorem stopped_while_sending :
    ∃ history server rest last,
      (listeningServer id).Run
          (ListeningServer.started .loopback fun _ : Bytes => []) history
            server ∧
        (listeningServer id).Run server rest last ∧
          rest.countP ShutdownStep.runs ≤ 44 ∧
            ∀ (session : Bool) input, input.brings = false →
              last.step id (.run (.step session input)) = none := by
  obtain ⟨history, server, run, passes⟩ :=
    (listeningServer id).exists_run_of_execute
      (ListeningServer.started .loopback fun _ : Bytes => []) 7
      (ListeningServer.script stopWhileSending)
      (fun _ server => !server.listenerSocket &&
        (listeningServer id).executesTo 7 (ListeningServer.script unwind)
          checkDrained server)
      (by decide +kernel)
  simp only [Bool.and_eq_true, Bool.not_eq_true'] at passes
  obtain ⟨stopped, executed⟩ := passes
  obtain ⟨rest, last, continues, passes⟩ :=
    System.exists_run_of_executesTo executed
  simp only [checkDrained, Bool.and_eq_true, List.all_eq_true,
    Bool.not_eq_true', decide_eq_true_eq, Option.isNone_iff_eq_none] at passes
  obtain ⟨silent, drained⟩ := passes
  have none : rest.countP ShutdownStep.brings = 0 :=
    List.countP_eq_zero.mpr fun step member => by simp [silent step member]
  obtain ⟨steps, _, ends⟩ := stopped_server_drains id .loopback
    (fun _ => []) history server run stopped rest last continues
  refine ⟨history, server, rest, last, run, continues, ?_, ?_⟩
  · simpa [none] using steps
  · refine ends.mpr fun session => ?_
    obtain ⟨accepts, idle, nothing, closed, gone⟩ := drained session
    exact ⟨.inl ⟨accepts, idle, nothing⟩, closed, fun _ => gone⟩

end Examples

end MsmTftp
