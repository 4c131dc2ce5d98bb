import Mathlib.Data.Fintype.Card
import MsmTftp.ServerFiles
import MsmTftp.SessionListening

/-!
# The sessions a server has left

All sessions of a server wait on one listener.  A receive of the listener that
fails, and a datagram that is no request, cost the server the session they are
handed to, and nothing brings it back.  A server that has lost all its
sessions does nothing any more.
-/

namespace MsmTftp

open CellBuffer FileStore TransitionSystem

instance (machine : Machine) : Decidable machine.Deaf :=
  decidable_of_iff
    (machine.state = .accepting ∧ machine.outstanding = [] ∧
      machine.data.hasReadRequestReceived = false ∧
        machine.data.hasWriteRequestReceived = false)
    ⟨fun ⟨accepts, nothing, noRead, noWrite⟩ =>
      ⟨accepts, nothing, noRead, noWrite⟩,
      fun ⟨accepts, nothing, noRead, noWrite⟩ =>
        ⟨accepts, nothing, noRead, noWrite⟩⟩

/-- The sessions that no longer listen. -/
def TftpServer.deaf {Session File : Type*} [Fintype Session]
    (server : TftpServer Session File) : Finset Session :=
  {session | (server.machines session).Deaf}

/-- A session was handed something it does not recover from. -/
def ServerStep.losesSession {Session File : Type*}
    (step : ServerStep Session File) : Bool :=
  match step.input with
  | .step session input =>
      decide ¬ Step.ServesListener
        ⟨step.before.machines session, input, step.outputs,
          step.after.machines session⟩
  | .drain _ _ => false

section Losses

variable {config : Config} {machine next : Machine} {input : Input}
  {effects : List Effect}

theorem Machine.started_listening (live : config.listenerSocket = true) :
    (Machine.started config).Listening := by
  intro _
  left
  simp [started, State.entry, enterAccepting, SessionData.fresh, live,
    Effect.operation]

theorem Machine.Listening.not_deaf (listening : machine.Listening) :
    ¬ machine.Deaf := by
  rintro ⟨accepts, nothing, noRead, noWrite⟩
  rcases listening accepts with armed | ⟨_, read | write⟩
  · exact armed nothing
  · simp [noRead] at read
  · simp [noWrite] at write

/-- A deaf session is not lost again, and what is left of its handler has no
effect. -/
theorem Machine.Deaf.silent (deaf : machine.Deaf)
    (wellFormed : machine.WellFormed config)
    (stepped : machine.step input = some (next, effects)) :
    effects = [] ∧
      Step.ServesListener ⟨machine, input, effects, next⟩ := by
  cases stepCases stepped with
  | complete settled idle started => simp [deaf.nothing] at started
  | parse settled running => exact ⟨rfl, trivial⟩
  | @fire row environment event tasks exitEffects settled running firing =>
      have clean := (wellFormed.pristine deaf.accepts).hasError
      rw [deaf.accepts] at firing
      generalize row.action = action, row.target = target,
        event.map Event.kind = kind at firing
      cases firing with
      | acceptingFailed error => simp [clean] at error
      | acceptWrite _ opcode => simp [deaf.noWrite] at opcode
      | acceptRead _ opcode => simp [deaf.noRead] at opcode
  | reject settled running refused => exact ⟨rfl, trivial⟩

end Losses

section Pools

variable {Session File : Type*} [DecidableEq Session] [DecidableEq File]
  {locate : Bytes → File} {config : Config}
  {before after server : TftpServer Session File}
  {signal : ServerInput Session} {effects : List Effect}

omit [DecidableEq Session] [DecidableEq File] in
theorem losesSession_iff {session : Session} {input : Input}
    {next : Machine} :
    ServerStep.losesSession ⟨before, .step session input, effects, after⟩ =
        true ↔
      ¬ Step.ServesListener
        ⟨before.machines session, input, effects, next⟩ :=
  decide_eq_true_iff

/-- Every session listens or is deaf, and stays deaf. -/
structure TftpServer.Sorted (config : Config)
    (server : TftpServer Session File) : Prop where
  wellFormed : server.WellFormed config
  sorted : ∀ session, (server.machines session).Listening ∨
    (server.machines session).Deaf

omit [DecidableEq Session] [DecidableEq File] in
theorem TftpServer.started_sorted (live : config.listenerSocket = true)
    (files : File → Bytes) :
    (TftpServer.started config files : TftpServer Session File).Sorted
      config :=
  ⟨TftpServer.started_wellFormed config files,
    fun _ => .inl (Machine.started_listening live)⟩

theorem TftpServer.Sorted.step (sorted : before.Sorted config)
    (live : config.listenerSocket = true)
    (stepped : before.step locate signal = some (after, effects)) :
    after.Sorted config := by
  obtain ⟨wellFormed, each⟩ := sorted
  refine ⟨wellFormed.step stepped, ?_⟩
  cases serverCases stepped with
  | drain => exact each
  | @step session input next _ taken =>
      intro other
      by_cases same : other = session
      · subst same
        simp only [Function.update_self]
        rcases each other with listening | deaf
        · by_cases serves :
            Step.ServesListener ⟨before.machines other, input, effects, next⟩
          · exact .inl (listening.step (wellFormed.machines other) live taken
              serves)
          · exact .inr ((wellFormed.machines other).deaf_of_not_serves taken
              serves)
        · exact .inr (deaf.step (wellFormed.machines other) taken)
      · simp only [Function.update_of_ne same]
        exact each other

variable [Fintype Session]

omit [DecidableEq Session] [DecidableEq File] in
@[simp]
theorem TftpServer.mem_deaf {session : Session} :
    session ∈ server.deaf ↔ (server.machines session).Deaf := by
  simp [deaf]

/-- A step makes one more session deaf when it loses a session, and none
otherwise. -/
theorem TftpServer.Sorted.deaf_card (sorted : before.Sorted config)
    (live : config.listenerSocket = true)
    (stepped : before.step locate signal = some (after, effects)) :
    after.deaf.card = before.deaf.card +
      if ServerStep.losesSession ⟨before, signal, effects, after⟩ then 1
      else 0 := by
  obtain ⟨wellFormed, each⟩ := sorted
  cases serverCases stepped with
  | drain => rfl
  | @step session input next _ taken =>
      split
      · rename_i loses
        have fails : ¬ Step.ServesListener
            ⟨before.machines session, input, effects, next⟩ :=
          losesSession_iff.mp loses
        have fresh : session ∉ before.deaf := by
          rw [mem_deaf]
          intro deaf
          exact fails (deaf.silent (wellFormed.machines session) taken).2
        rw [← Finset.card_insert_of_notMem fresh]
        congr 1
        ext other
        by_cases same : other = session
        · subst same
          have deaf := (wellFormed.machines other).deaf_of_not_serves taken
            fails
          simpa using deaf
        · simp [same]
      · rename_i keeps
        have serves : Step.ServesListener
            ⟨before.machines session, input, effects, next⟩ :=
          not_not.mp fun fails => keeps (losesSession_iff.mpr fails)
        rw [Nat.add_zero]
        congr 1
        ext other
        by_cases same : other = session
        · subst same
          simp only [mem_deaf, Function.update_self]
          refine ⟨fun deaf => ?_, fun deaf =>
            deaf.step (wellFormed.machines other) taken⟩
          rcases each other with listening | already
          · exact absurd deaf (listening.step (wellFormed.machines other)
              live taken serves).not_deaf
          · exact already
        · simp [Function.update_of_ne same]

omit [Fintype Session] in
/-- A server without a listening session has no effect any more. -/
theorem TftpServer.WellFormed.silent
    {history : List (ServerStep Session File)}
    (wellFormed : before.WellFormed config)
    (lost : ∀ session, (before.machines session).Deaf)
    (run : (tftpServer locate).Run before history after)
    {step : ServerStep Session File} (member : step ∈ history) :
    step.outputs = [] := by
  have each : (step.before.WellFormed config ∧
      ∀ session, (step.before.machines session).Deaf) ∧
        (tftpServer locate).Admits step := by
    apply run.transitions (fun server => server.WellFormed config ∧
      ∀ session, (server.machines session).Deaf) ⟨wellFormed, lost⟩ _ member
    rintro ⟨server, signal, effects, next⟩ ⟨formed, lost⟩ admitted
    have taken : server.step locate signal = some (next, effects) := admitted
    refine ⟨formed.step taken, ?_⟩
    cases serverCases taken with
    | drain => exact lost
    | @step session input machine _ stepped =>
        intro other
        by_cases same : other = session
        · subst same
          simp only [Function.update_self]
          exact (lost other).step (formed.machines other) stepped
        · simp only [Function.update_of_ne same]
          exact lost other
  obtain ⟨⟨formed, lost⟩, admitted⟩ := each
  obtain ⟨server, signal, effects, next⟩ := step
  have taken : server.step locate signal = some (next, effects) := admitted
  cases serverCases taken with
  | drain => rfl
  | @step session input machine _ stepped =>
      exact ((lost session).silent (formed.machines session) stepped).1

end Pools

/-- The sessions a server has lost are as many as the datagrams that are no
requests and the failed receives it has handed to a session.  Every other
session is driven whenever its handlers have returned; a handler that threw
because the data socket could not be opened never returns, and its session is
not counted.  Once all sessions are lost, nothing the server does has an
effect: it sends no packet, starts no operation and touches no file. -/
theorem lost_sessions_counted {Session File : Type*} [DecidableEq Session]
    [DecidableEq File] [Fintype Session] (locate : Bytes → File)
    (config : Config) (live : config.listenerSocket = true)
    (files : File → Bytes) (history : List (ServerStep Session File))
    (server : TftpServer Session File)
    (run : TftpServer.Reaches locate config files history server) :
    server.deaf.card = history.countP ServerStep.losesSession ∧
      (∀ session, session ∉ server.deaf →
        (server.machines session).returned = true →
          (server.machines session).Driven) ∧
      (history.countP ServerStep.losesSession = Fintype.card Session →
        ∀ rest last, (tftpServer locate).Run server rest last →
          ∀ step ∈ rest, step.outputs = []) := by
  have counted : server.Sorted config ∧
      server.deaf.card = history.countP ServerStep.losesSession := by
    apply System.Run.history_invariant run (fun _ => True)
      (fun _ _ => trivial) fun history server => server.Sorted config ∧
        server.deaf.card = history.countP ServerStep.losesSession
    · have sorted : (TftpServer.started config files :
          TftpServer Session File).Sorted config :=
        TftpServer.started_sorted live files
      refine ⟨sorted, Finset.card_eq_zero.mpr ?_⟩
      apply Finset.eq_empty_of_forall_notMem
      intro session member
      exact (Machine.started_listening live).not_deaf
        (TftpServer.mem_deaf.mp member)
    · rintro past ⟨before, signal, effects, after⟩ ⟨sorted, counted⟩ admitted
        _
      refine ⟨sorted.step live admitted, ?_⟩
      rw [sorted.deaf_card live admitted, counted, List.countP_append,
        List.countP_singleton]
  obtain ⟨sorted, counted⟩ := counted
  refine ⟨counted, ?_, ?_⟩
  · intro session listens returned
    rcases sorted.sorted session with listening | deaf
    · exact driven_of_listening (sorted.wellFormed.machines session) listening
        returned
    · exact absurd (TftpServer.mem_deaf.mpr deaf) listens
  · intro all rest last continues step member
    have full : server.deaf = Finset.univ :=
      Finset.eq_univ_of_card _ (counted.trans all)
    refine sorted.wellFormed.silent (fun session => ?_) continues member
    rw [← TftpServer.mem_deaf, full]
    exact Finset.mem_univ session

/-- An ACK packet is sent to the listener of a server with two sessions,
twice. -/
def strayAcks : List (ServerInput Bool × Environment) :=
  [(.step false (.complete (.accepted .client (ackOf 0))), {}),
    (.step true (.complete (.accepted .client (ackOf 0))), {}),
    (.drain false 0, {})]

/-- Two stray packets silence a server with two sessions. -/
theorem stray_acks_silence :
    ∃ history server,
      TftpServer.Reaches id .loopback (fun _ : Bytes => []) history server ∧
        server.deaf = (Finset.univ : Finset Bool) ∧
          ∀ rest last, (tftpServer id).Run server rest last →
            ∀ step ∈ rest, step.outputs = [] := by
  obtain ⟨history, server, run, lost⟩ :=
    (tftpServer id).exists_run_of_execute
      (TftpServer.started .loopback fun _ : Bytes => []) 7
      (TftpServer.script strayAcks)
      (fun history _ => decide (history.countP ServerStep.losesSession =
        Fintype.card Bool))
      (by decide +kernel)
  have all := of_decide_eq_true lost
  obtain ⟨counted, _, silent⟩ := lost_sessions_counted id .loopback rfl
    (fun _ => []) history server run
  exact ⟨history, server, run, Finset.eq_univ_of_card _ (counted.trans all),
    silent all⟩

end MsmTftp
