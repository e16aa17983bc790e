/-
# The workers of a process

A process runs one worker on each core, or a single one on macOS. Each has a thread
and a `LocalSet` of its own, and all share the node and the serial channels: of one
worker only one task acts at a time, while those of different workers interleave.
Seen from the world they share the process is a server.
-/

import ServerGo.Gateway.LocalSet
import ServerGo.Math.Simulation

namespace ServerGo.Gateway

open ServerGo.Math ServerGo.Storage

/-- The `LocalSet` of one worker: the tasks spawned on it, in order; how many of them
have been started; and the one that runs. -/
structure Core where
  tasks : List Nat
  started : Nat
  running : Option Nat

/-- What all workers share, how many requests they have received together, and each
of them. A task has the number of its request. -/
structure Process (S : Type) (n cores : Nat) where
  server : Server S n
  received : Nat
  core : Fin cores → Core

/-- What can happen next. -/
inductive CoreEvent (n cores : Nat)
  /-- `rx.recv()` returns a request, and its task is spawned. -/
  | receive (i : Fin cores) (request : GatewayRequest)
  /-- The oldest task that was spawned and not started is started. -/
  | start (i : Fin cores)
  /-- A task that waited is woken. -/
  | resume (i : Fin cores) (id : Nat)
  /-- The task that runs takes its next action. -/
  | act (i : Fin cores)
  /-- The task that runs has ended, or must wait. -/
  | yield (i : Fin cores)
  | writerTurn
  | driverTurn (channel : Fin n)
  | close (channel : Fin n)
  deriving DecidableEq

namespace Process

variable {S : Type} {n cores : Nat}

/-- No request has been received yet. -/
def start (world : World S n) : Process S n cores := ⟨.start world, 0, fun _ => ⟨[], 0, none⟩⟩

/-- One worker changes. -/
def setCore (state : Process S n cores) (i : Fin cores) (core : Core) : Process S n cores :=
  { state with core := Function.update state.core i core }

@[simp]
theorem setCore_server (state : Process S n cores) (i : Fin cores) (core : Core) :
    (state.setCore i core).server = state.server := rfl

@[simp]
theorem setCore_received (state : Process S n cores) (i : Fin cores) (core : Core) :
    (state.setCore i core).received = state.received := rfl

@[simp]
theorem setCore_core (state : Process S n cores) (i : Fin cores) (core : Core) :
    (state.setCore i core).core = Function.update state.core i core := rfl

variable [StateStore S] (hashes : Hashes) (settings : SecuritySettings)

/-- An event of the server that leaves the workers alone. -/
def serve (state : Process S n cores) (event : ServerEvent n) : Option (Process S n cores) :=
  (Server.step hashes settings state.server event).map fun server => { state with server := server }

/-- One event, when it is possible. -/
def step (state : Process S n cores) : CoreEvent n cores → Option (Process S n cores)
  | .receive i request =>
      if (state.core i).running = none then
        (Server.step hashes settings state.server (.arrive state.received i request)).map
          fun server =>
            { state.setCore i { state.core i with
                tasks := (state.core i).tasks ++ [state.received] } with
              server := server
              received := state.received + 1 }
      else none
  | .start i =>
      if (state.core i).running = none then
        ((state.core i).tasks[(state.core i).started]?).map fun id =>
          state.setCore i { state.core i with
            started := (state.core i).started + 1
            running := some id }
      else none
  | .resume i id =>
      if (state.core i).running = none ∧ id ∈ (state.core i).tasks.take (state.core i).started then
        some (state.setCore i { state.core i with running := some id })
      else none
  | .act i => (state.core i).running.bind fun id => state.serve hashes settings (.act id)
  | .yield i =>
      (state.core i).running.bind fun id =>
        if (Server.step hashes settings state.server (.act id)).isNone then
          some (state.setCore i { state.core i with running := none })
        else none
  | .writerTurn => state.serve hashes settings .writerTurn
  | .driverTurn channel => state.serve hashes settings (.driverTurn channel)
  | .close channel => state.serve hashes settings (.close channel)

/-- The process after a list of events, when each was possible in its turn. -/
abbrev run (start : Process S n cores) (events : List (CoreEvent n cores)) :
    Option (Process S n cores) :=
  runSteps (step hashes settings) start events

/-! ## What a step can do -/

variable {hashes settings} {state after : Process S n cores}

/-- What a step can do, event by event. -/
theorem step_cases {event : CoreEvent n cores} :
    step hashes settings state event = some after →
    match event with
    | .receive i request =>
        ∃ server, (state.core i).running = none ∧
        Server.step hashes settings state.server (.arrive state.received i request) =
          some server ∧
        after = { state.setCore i { state.core i with
            tasks := (state.core i).tasks ++ [state.received] } with
          server := server
          received := state.received + 1 }
    | .start i =>
        ∃ id, (state.core i).running = none ∧
        (state.core i).tasks[(state.core i).started]? = some id ∧
        after = state.setCore i { state.core i with
          started := (state.core i).started + 1
          running := some id }
    | .resume i id =>
        ((state.core i).running = none ∧ id ∈ (state.core i).tasks.take (state.core i).started) ∧
        after = state.setCore i { state.core i with running := some id }
    | .act i =>
        ∃ id server, (state.core i).running = some id ∧
        Server.step hashes settings state.server (.act id) = some server ∧
        after = { state with server := server }
    | .yield i =>
        ∃ id, (state.core i).running = some id ∧
        Server.step hashes settings state.server (.act id) = none ∧
        after = state.setCore i { state.core i with running := none }
    | .writerTurn => after = { state with server := state.server.record hashes .writerTurn }
    | .driverTurn channel =>
        after = { state with server := state.server.record hashes (.driverTurn channel) }
    | .close channel =>
        after = { state with server := state.server.record hashes (.closed channel) } := by
  intro hstep
  cases event with
  | receive i request =>
      obtain ⟨hidle, harrived⟩ := Option.ite_none_right_eq_some.mp hstep
      obtain ⟨server, hserver, rfl⟩ := Option.map_eq_some_iff.mp harrived
      exact ⟨server, hidle, hserver, rfl⟩
  | start i =>
      obtain ⟨hidle, hstarted⟩ := Option.ite_none_right_eq_some.mp hstep
      obtain ⟨id, hid, rfl⟩ := Option.map_eq_some_iff.mp hstarted
      exact ⟨id, hidle, hid, rfl⟩
  | resume i id =>
      obtain ⟨hpossible, hafter⟩ := Option.ite_none_right_eq_some.mp hstep
      exact ⟨hpossible, (Option.some.inj hafter).symm⟩
  | act i =>
      obtain ⟨id, hrunning, hacted⟩ := Option.bind_eq_some_iff.mp hstep
      obtain ⟨server, hserver, rfl⟩ := Option.map_eq_some_iff.mp hacted
      exact ⟨id, server, hrunning, hserver, rfl⟩
  | yield i =>
      obtain ⟨id, hrunning, hyielded⟩ := Option.bind_eq_some_iff.mp hstep
      obtain ⟨hstuck, hafter⟩ := Option.ite_none_right_eq_some.mp hyielded
      exact ⟨id, hrunning, Option.isNone_iff_eq_none.mp hstuck, (Option.some.inj hafter).symm⟩
  | writerTurn => exact (Option.some.inj hstep).symm
  | driverTurn channel => exact (Option.some.inj hstep).symm
  | close channel => exact (Option.some.inj hstep).symm

/-! ## The process as a server -/

/-- What an event is to the server. -/
def serverEvent? (state : Process S n cores) : CoreEvent n cores → Option (ServerEvent n)
  | .receive i request => some (.arrive state.received i request)
  | .start _ => none
  | .resume _ _ => none
  | .act i => (state.core i).running.map .act
  | .yield _ => none
  | .writerTurn => some .writerTurn
  | .driverTurn channel => some (.driverTurn channel)
  | .close channel => some (.close channel)

variable (hashes settings) in
/-- **The process is a server** to which starting, waking and giving way are nothing.
-/
def simulation :
    Simulation (step hashes settings : Process S n cores → CoreEvent n cores → _)
      (Server.step hashes settings : Server S n → ServerEvent n → _) where
  Rel state server := state.server = server
  matching state event := (state.serverEvent? event).toList
  rel_step := by
    rintro state after _ event rfl hstep
    have hcases := step_cases hstep
    cases event with
    | receive i request =>
        obtain ⟨server, -, hserver, rfl⟩ := hcases
        exact ⟨server, by rw [serverEvent?, Option.toList_some, runSteps_cons, hserver]; rfl, rfl⟩
    | start i =>
        obtain ⟨id, -, -, rfl⟩ := hcases
        exact ⟨_, rfl, rfl⟩
    | resume i id =>
        obtain ⟨-, rfl⟩ := hcases
        exact ⟨_, rfl, rfl⟩
    | act i =>
        obtain ⟨id, server, hrunning, hserver, rfl⟩ := hcases
        refine ⟨server, ?_, rfl⟩
        rw [serverEvent?, hrunning, Option.map_some, Option.toList_some, runSteps_cons, hserver]
        rfl
    | yield i =>
        obtain ⟨id, -, -, rfl⟩ := hcases
        exact ⟨_, rfl, rfl⟩
    | writerTurn =>
        cases hcases
        exact ⟨_, rfl, rfl⟩
    | driverTurn channel =>
        cases hcases
        exact ⟨_, rfl, rfl⟩
    | close channel =>
        cases hcases
        exact ⟨_, rfl, rfl⟩

end Process

end ServerGo.Gateway
