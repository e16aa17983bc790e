/-
# The tasks of one worker

A worker takes its requests off its channel one after the other and spawns a task
for each on its `LocalSet`. The set runs on one thread: it starts the tasks in the
order in which they were spawned, and the one that runs gives way only when it has
ended or its next send must wait. Drivers and the writer work beside it.
-/

import ServerGo.Gateway.Server

namespace ServerGo.Gateway

open ServerGo.Math ServerGo.Storage

/-- The server as one worker sees it, and its `LocalSet`: the requests received, in
order, each the request of the task numbered by its place; how many of their tasks
have been started; and the task that runs. -/
structure LocalSet (S : Type) (n : Nat) where
  server : Server S n
  received : List GatewayRequest
  started : Nat
  running : Option Nat

/-- What can happen next. -/
inductive LocalEvent (n : Nat)
  /-- `rx.recv()` returns a request, and its task is spawned. -/
  | receive (request : GatewayRequest)
  /-- The oldest task that was spawned and not started is started. -/
  | start
  /-- A task that waited is woken. -/
  | resume (id : Nat)
  /-- The task that runs takes its next action. -/
  | act
  /-- The task that runs has ended, or must wait. -/
  | yield
  | writerTurn
  | driverTurn (channel : Fin n)
  | close (channel : Fin n)
  deriving DecidableEq

namespace LocalSet

variable {S : Type} {n : Nat}

/-- No request has been received yet. -/
def start (world : World S n) : LocalSet S n := ⟨.start world, [], 0, none⟩

variable [StateStore S] (hashes : Hashes) (settings : SecuritySettings) (workerId : Nat)

/-- An event of the server that leaves the set alone. -/
def serve (state : LocalSet S n) (event : ServerEvent n) : Option (LocalSet S n) :=
  (Server.step hashes settings state.server event).map fun server => { state with server := server }

/-- One event, when it is possible. -/
def step (state : LocalSet S n) : LocalEvent n → Option (LocalSet S n)
  | .receive request =>
      if state.running = none then
        (Server.step hashes settings state.server
          (.arrive state.received.length workerId request)).map fun server =>
            { state with
              server := server
              received := state.received ++ [request] }
      else none
  | .start =>
      if state.running = none ∧ state.started < state.received.length then
        some { state with
          started := state.started + 1
          running := some state.started }
      else none
  | .resume id =>
      if state.running = none ∧ id < state.started then some { state with running := some id }
      else none
  | .act =>
      match state.running with
      | some id => state.serve hashes settings (.act id)
      | none => none
  | .yield =>
      match state.running with
      | some id =>
          if (Server.step hashes settings state.server (.act id)).isNone then
            some { state with running := none }
          else none
      | none => none
  | .writerTurn => state.serve hashes settings .writerTurn
  | .driverTurn channel => state.serve hashes settings (.driverTurn channel)
  | .close channel => state.serve hashes settings (.close channel)

/-- The set after a list of events, when each was possible in its turn. -/
abbrev run (start : LocalSet S n) (events : List (LocalEvent n)) : Option (LocalSet S n) :=
  runSteps (step hashes settings workerId) start events

/-! ## What a step can do -/

variable {hashes settings workerId} {state after : LocalSet S n}

/-- What a step can do, event by event. -/
theorem step_cases {event : LocalEvent n} :
    step hashes settings workerId state event = some after →
    match event with
    | .receive request =>
        state.running = none ∧ state.server.task state.received.length = none ∧
        after = { state with
          server := { state.server with
            task := Function.update state.server.task state.received.length
              (some ⟨workerId, request, handler workerId settings request⟩) }
          received := state.received ++ [request] }
    | .start =>
        (state.running = none ∧ state.started < state.received.length) ∧
        after = { state with
          started := state.started + 1
          running := some state.started }
    | .resume id =>
        (state.running = none ∧ id < state.started) ∧ after = { state with running := some id }
    | .act =>
        ∃ id workerId request action rest effect, state.running = some id ∧
        state.server.task id = some ⟨workerId, request, action :: rest⟩ ∧
        state.server.world.outcome hashes action = some effect ∧
        after = { state with
          server := state.server.advance hashes id ⟨workerId, request, rest⟩ effect }
    | .yield =>
        ∃ id, state.running = some id ∧
        Server.step hashes settings state.server (.act id) = none ∧
        after = { state with running := none }
    | .writerTurn => after = { state with server := state.server.record hashes .writerTurn }
    | .driverTurn channel =>
        after = { state with server := state.server.record hashes (.driverTurn channel) }
    | .close channel =>
        after = { state with server := state.server.record hashes (.closed channel) } := by
  intro hstep
  cases event with
  | receive request =>
      obtain ⟨hidle, harrived⟩ := Option.ite_none_right_eq_some.mp hstep
      obtain ⟨server, hserver, rfl⟩ := Option.map_eq_some_iff.mp harrived
      rw [Server.step] at hserver
      split at hserver
      next hfresh =>
          cases hserver
          exact ⟨hidle, hfresh, rfl⟩
      next => cases hserver
  | start =>
      obtain ⟨hpossible, hafter⟩ := Option.ite_none_right_eq_some.mp hstep
      exact ⟨hpossible, (Option.some.inj hafter).symm⟩
  | resume id =>
      obtain ⟨hpossible, hafter⟩ := Option.ite_none_right_eq_some.mp hstep
      exact ⟨hpossible, (Option.some.inj hafter).symm⟩
  | act =>
      rw [step] at hstep
      split at hstep
      next id hrunning =>
          obtain ⟨server, hserver, rfl⟩ := Option.map_eq_some_iff.mp hstep
          obtain ⟨workerId, request, action, rest, effect, htask, houtcome, rfl⟩ :=
            Server.act_cases hserver
          exact ⟨id, workerId, request, action, rest, effect, hrunning, htask, houtcome, rfl⟩
      next => cases hstep
  | yield =>
      rw [step] at hstep
      split at hstep
      next id hrunning =>
          obtain ⟨hstuck, hafter⟩ := Option.ite_none_right_eq_some.mp hstep
          exact ⟨id, hrunning, Option.isNone_iff_eq_none.mp hstuck,
            (Option.some.inj hafter).symm⟩
      next => cases hstep
  | writerTurn => exact (Option.some.inj hstep).symm
  | driverTurn channel => exact (Option.some.inj hstep).symm
  | close channel => exact (Option.some.inj hstep).symm

/-- A worker is a server on which one task acts at a time. -/
theorem step_server {event : LocalEvent n}
    (hstep : step hashes settings workerId state event = some after) :
    after.server = state.server ∨
      ∃ event, Server.step hashes settings state.server event = some after.server := by
  have hcases := step_cases hstep
  cases event with
  | receive request =>
      obtain ⟨-, hfresh, rfl⟩ := hcases
      refine Or.inr ⟨.arrive state.received.length workerId request, ?_⟩
      rw [Server.step, hfresh]
  | start =>
      obtain ⟨-, rfl⟩ := hcases
      exact Or.inl rfl
  | resume id =>
      obtain ⟨-, rfl⟩ := hcases
      exact Or.inl rfl
  | act =>
      obtain ⟨id, workerId, request, action, rest, effect, -, htask, houtcome, rfl⟩ := hcases
      refine Or.inr ⟨.act id, ?_⟩
      simp only [Server.step, htask, houtcome, Option.map_some]
  | yield =>
      obtain ⟨id, -, -, rfl⟩ := hcases
      exact Or.inl rfl
  | writerTurn =>
      cases hcases
      exact Or.inr ⟨.writerTurn, rfl⟩
  | driverTurn channel =>
      cases hcases
      exact Or.inr ⟨.driverTurn channel, rfl⟩
  | close channel =>
      cases hcases
      exact Or.inr ⟨.close channel, rfl⟩

/-- **A run of a worker is a run of the server.** -/
theorem exists_server_run {world : World S n} {events : List (LocalEvent n)}
    (hrun : run hashes settings workerId (start world) events = some state) :
    ∃ serverEvents,
      Server.run hashes settings (Server.start world) serverEvents = some state.server := by
  refine runSteps_induction (motive := fun _ (state : LocalSet S n) => ∃ serverEvents,
    Server.run hashes settings (Server.start world) serverEvents = some state.server)
    ⟨[], rfl⟩ ?_ hrun
  rintro events before event after - ⟨serverEvents, hbefore⟩ hstep
  rcases step_server hstep with hsame | ⟨serverEvent, hserver⟩
  · exact ⟨serverEvents, hsame ▸ hbefore⟩
  · exact ⟨serverEvents ++ [serverEvent],
      runSteps_concat_eq_some.mpr ⟨before.server, hbefore, hserver⟩⟩

end LocalSet

/-! ## Replies -/

/-- The reply an effect is. -/
def Effect.reply? {n : Nat} : Effect n → Option Frame
  | .replied frame => some frame
  | _ => none

/-- The replies a task has made. -/
def repliesOf {n : Nat} (id : Nat) (log : List (Entry n)) : List Frame :=
  (effectsOf id log).filterMap Effect.reply?

end ServerGo.Gateway
