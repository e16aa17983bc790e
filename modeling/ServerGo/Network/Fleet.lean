/-
# Whole servers that replicate by broadcast

Every node of a fleet runs a server of its own, with its own settings and serial
channels. What its tasks hand to the network is there for the other nodes to
receive. To the stores and the network alone, the fleet is a cluster: a put is
where a task stores, and all else that tasks do is not seen.
-/

import ServerGo.Gateway.TaskSteps
import ServerGo.Math.Simulation
import ServerGo.Network.Replication

namespace ServerGo.Network

open ServerGo.Gateway ServerGo.Math ServerGo.Storage

/-- What can happen in a fleet whose nodes have so many serial channels each. -/
inductive FleetEvent (N : Type) (n : N → Nat)
  /-- Something happens in the server of a node. -/
  | serve (node : N) (event : ServerEvent (n node))
  /-- A message reaches a node, which applies the record it carries. -/
  | deliver (node : N) (message : Nat) (record : SignedRecord)

/-- The servers of the nodes, and the messages handed to the network with the
node that sent each. -/
structure Fleet (N DB : Type) (n : N → Nat) where
  server : ∀ node, Server (TieredStore DB) (n node)
  sent : List (N × SignedRecord)

end ServerGo.Network

namespace ServerGo.Gateway

open ServerGo.Math ServerGo.Storage

variable {S : Type} [StateStore S] {n : Nat} {hashes : Hashes}

/-- What an entry hands to the network. -/
def Entry.broadcast? (hashes : Hashes) : Entry n → Option SignedRecord
  | .task _ (.applied key val) =>
      if stressPrefix.isPrefixOf key then none else some (kvRecord hashes key val)
  | _ => none

namespace World

variable {world : World S n}

theorem broadcasts_replay (entry : Entry n) :
    (world.replay hashes entry).broadcasts =
      world.broadcasts ++ (entry.broadcast? hashes).toList := by
  rcases entry with ⟨id, effect⟩ | _ | channel | channel
  · cases effect with
    | applied key val => rfl
    | _ => exact (List.append_nil _).symm
  · exact (List.append_nil _).symm
  · exact (List.append_nil _).symm
  · exact (List.append_nil _).symm

end World

end ServerGo.Gateway

namespace ServerGo.Network

open ServerGo.Gateway ServerGo.Math ServerGo.Storage

namespace Fleet

variable {N DB : Type} {n : N → Nat}

/-- Every node opens its partition and its channels; nothing has been sent. -/
def start (db : N → DB) (serial : ∀ node, Fin (n node) → SerialChannel) : Fleet N DB n where
  server node := Server.start ⟨TieredStore.new (db node), [], serial node⟩
  sent := []

variable [DecidableEq N] [CdDB DB] (hashes : NodeHashes N) (settings : N → SecuritySettings)

/-- One event. What a server broadcasts in it is sent; a message is delivered only
after it was sent, and not to its sender. -/
def step (state : Fleet N DB n) : FleetEvent N n → Option (Fleet N DB n)
  | .serve node event =>
      (Server.step (hashes.of node) (settings node) (state.server node) event).map fun server =>
        { server := Function.update state.server node server
          sent := state.sent ++
            (server.world.broadcasts.drop
              (state.server node).world.broadcasts.length).map fun record => (node, record) }
  | .deliver node message record =>
      match state.sent[message]? with
      | some (origin, carried) =>
          if origin ≠ node ∧ carried = record then
            some { state with
              server := Function.update state.server node
                ((state.server node).receive (hashes.of node) record) }
          else none
      | none => none

/-- The fleet after a list of events, when each was possible in its turn. -/
abbrev run (start : Fleet N DB n) (events : List (FleetEvent N n)) : Option (Fleet N DB n) :=
  runSteps (step hashes settings) start events

variable {hashes settings} {state after : Fleet N DB n} {event : FleetEvent N n}

/-- What an event can do. -/
theorem step_cases (hstep : step hashes settings state event = some after) :
    match event with
    | .serve node event =>
        ∃ server,
          Server.step (hashes.of node) (settings node) (state.server node) event = some server ∧
          after = {
            server := Function.update state.server node server
            sent := state.sent ++
              (server.world.broadcasts.drop
                (state.server node).world.broadcasts.length).map fun record => (node, record) }
    | .deliver node message record =>
        (∃ origin, origin ≠ node ∧ state.sent[message]? = some (origin, record)) ∧
        after = { state with
          server := Function.update state.server node
            ((state.server node).receive (hashes.of node) record) } := by
  cases event with
  | serve node event =>
      obtain ⟨server, hserver, hafter⟩ := Option.map_eq_some_iff.mp hstep
      exact ⟨server, hserver, hafter.symm⟩
  | deliver node message record =>
      rw [step] at hstep
      split at hstep
      next origin carried hsent =>
          obtain ⟨⟨horigin, rfl⟩, hafter⟩ := Option.ite_none_right_eq_some.mp hstep
          exact ⟨⟨origin, horigin, hsent⟩, (Option.some.inj hafter).symm⟩
      next => cases hstep

/-- To the tasks and the channels of a node, an event is a step of its server or
nothing. -/
theorem server_cases (hstep : step hashes settings state event = some after) (node : N) :
    (∃ inner, event = .serve node inner ∧
      Server.step (hashes.of node) (settings node) (state.server node) inner =
        some (after.server node)) ∨
    ((after.server node).task = (state.server node).task ∧
      (after.server node).log = (state.server node).log ∧
      (after.server node).world.serial = (state.server node).world.serial) := by
  cases event with
  | serve other inner =>
      obtain ⟨server, hserver, rfl⟩ := step_cases hstep
      by_cases hnode : node = other
      · subst hnode
        refine Or.inl ⟨inner, rfl, ?_⟩
        dsimp only
        rw [Function.update_self]
        exact hserver
      · dsimp only
        rw [Function.update_of_ne hnode]
        exact Or.inr ⟨rfl, rfl, rfl⟩
  | deliver other message record =>
      obtain ⟨-, rfl⟩ := step_cases hstep
      by_cases hnode : node = other
      · subst hnode
        dsimp only
        rw [Function.update_self]
        exact Or.inr ⟨rfl, rfl, rfl⟩
      · dsimp only
        rw [Function.update_of_ne hnode]
        exact Or.inr ⟨rfl, rfl, rfl⟩

/-! ## The tasks of a node -/

variable {db : N → DB} {serial : ∀ node, Fin (n node) → SerialChannel}
  {events : List (FleetEvent N n)}

/-- A task is that of a request that has arrived at its node. -/
theorem arrive_mem_of_task (hrun : run hashes settings (start db serial) events = some state)
    {node : N} {id : Nat} {task : Task (n node)} (htask : (state.server node).task id = some task) :
    .serve node (.arrive id task.workerId task.request) ∈ events := by
  refine runSteps_induction (motive := fun events (state : Fleet N DB n) =>
    ∀ task, (state.server node).task id = some task →
      .serve node (.arrive id task.workerId task.request) ∈ events) ?_ ?_ hrun task htask
  · intro task htask
    cases htask
  intro events before event after _ ih hstep task htask
  rcases server_cases hstep node with ⟨inner, rfl, hinner⟩ | ⟨hsame, -, -⟩
  · rcases (Server.taskStep_of_step hinner id).arrived htask with ⟨rest, hbefore⟩ | rfl
    · exact List.mem_append_left _ (ih { task with rest := rest } hbefore)
    · exact List.mem_append_right _ (List.mem_singleton_self _)
  · exact List.mem_append_left _ (ih task (hsame ▸ htask))

/-- Records that arrive leave the progress of the tasks alone. -/
theorem progress_run (hrun : run hashes settings (start db serial) events = some state) (node : N)
    (id : Nat) :
    Server.Progress (settings node) ((state.server node).task id)
      (effectsOf id (state.server node).log) := by
  refine runSteps_induction (motive := fun _ (state : Fleet N DB n) =>
    Server.Progress (settings node) ((state.server node).task id)
      (effectsOf id (state.server node).log)) ?_ ?_ hrun
  · show effectsOf id [] = []
    rfl
  intro events before event after _ ih hstep
  rcases server_cases hstep node with ⟨inner, -, hinner⟩ | ⟨htask, hlog, -⟩
  · exact (Server.taskStep_of_step hinner id).moved.progress ih
  · rwa [htask, hlog]

/-- A task stays that of its request. -/
theorem request_run {before : Fleet N DB n} {later : List (FleetEvent N n)}
    (hrun : run hashes settings before later = some state) {node : N} {id : Nat}
    {task : Task (n node)} (htask : (before.server node).task id = some task) :
    ∃ rest, (state.server node).task id = some { task with rest := rest } := by
  refine runSteps_induction (motive := fun _ (state : Fleet N DB n) =>
    ∃ rest, (state.server node).task id = some { task with rest := rest }) ⟨_, htask⟩ ?_ hrun
  rintro events middle event after _ ⟨left, hleft⟩ hstep
  rcases server_cases hstep node with ⟨inner, -, hinner⟩ | ⟨hsame, -, -⟩
  · obtain ⟨rest, hrest⟩ := (Server.taskStep_of_step hinner id).moved.request hleft
    exact ⟨rest, hrest⟩
  · exact ⟨left, hsame ▸ hleft⟩

/-- The channels of a node are what its own log makes of them. -/
theorem serial_run (hrun : run hashes settings (start db serial) events = some state) (node : N) :
    (state.server node).world.serial =
      ((World.mk (TieredStore.new (db node)) [] (serial node)).replayAll (hashes.of node)
        (state.server node).log).serial := by
  refine runSteps_induction (motive := fun _ (state : Fleet N DB n) =>
    (state.server node).world.serial =
      ((World.mk (TieredStore.new (db node)) [] (serial node)).replayAll (hashes.of node)
        (state.server node).log).serial) rfl ?_ hrun
  intro events before event after _ ih hstep
  rcases server_cases hstep node with ⟨inner, -, hinner⟩ | ⟨-, hlog, hserial⟩
  · rcases Server.step_entry hinner with ⟨hworld, hlog⟩ | ⟨entry, hworld, hlog⟩
    · rwa [hworld, hlog]
    · rw [hworld, hlog, World.replayAll_concat]
      exact World.serial_replay_congr ih entry
  · rwa [hlog, hserial]

/-! ## The cluster of their stores -/

/-- What an entry in the log of a node is to the cluster. -/
def clusterEvent? {k : Nat} (node : N) (entry : Entry k) : Option (ClusterEvent N) :=
  match entry.call? with
  | some (.put key val) => some (.put node key val)
  | some .writerTurn => some (.writerTurn node)
  | _ => none

/-- What the log of a server has grown by in a step. -/
def logged (hashes : Hashes) (settings : SecuritySettings) {k : Nat}
    (state : Server (TieredStore DB) k) (event : ServerEvent k) : List (Entry k) :=
  match Server.step hashes settings state event with
  | some after => after.log.drop state.log.length
  | none => []

/-- What an event of the fleet is to the cluster. -/
def matching (hashes : NodeHashes N) (settings : N → SecuritySettings) (state : Fleet N DB n) :
    FleetEvent N n → List (ClusterEvent N)
  | .serve node event =>
      (logged (hashes.of node) (settings node) (state.server node) event).filterMap
        (clusterEvent? node)
  | .deliver node message record => [.deliver node message record]

/-- The stores of the servers, and what has been sent. -/
def cluster (state : Fleet N DB n) : Cluster N DB where
  store node := (state.server node).world.storage
  sent := state.sent

omit [DecidableEq N] [CdDB DB] in
theorem cluster_start :
    (start db serial : Fleet N DB n).cluster = Cluster.start db := rfl

/-- An entry is to the cluster what it is to the store and the network. -/
theorem cluster_replay {node : N} {server : Server (TieredStore DB) (n node)}
    {entry : Entry (n node)}
    (hworld : server.world = (state.server node).world.replay (hashes.of node) entry) :
    runSteps (Cluster.step hashes) state.cluster (clusterEvent? node entry).toList =
      some (cluster {
        server := Function.update state.server node server
        sent := state.sent ++
          (entry.broadcast? (hashes.of node)).toList.map fun record => (node, record) }) := by
  have hstore : ∀ sent : List (N × SignedRecord),
      cluster { server := Function.update state.server node server, sent := sent } =
        ⟨Function.update state.cluster.store node
          ((state.server node).world.replay (hashes.of node) entry).storage, sent⟩ := by
    refine fun sent => congrArg (Cluster.mk · sent) (funext fun other => ?_)
    by_cases hnode : other = node
    · subst hnode
      dsimp only
      rw [Function.update_self, Function.update_self, hworld]
    · dsimp only
      rw [Function.update_of_ne hnode, Function.update_of_ne hnode]
      rfl
  rw [hstore]
  rcases entry with ⟨id, effect⟩ | _ | channel | channel
  · cases effect with
    | applied key val =>
        show runSteps (Cluster.step hashes) state.cluster [.put node key val] = _
        rw [runSteps_cons, Cluster.step_put, Entry.broadcast?]
        split <;> rfl
    | _ => simp [clusterEvent?, Entry.call?, Entry.broadcast?, World.replay, World.after, cluster]
  · simp [clusterEvent?, Entry.call?, Entry.broadcast?, World.replay, cluster, Cluster.step]
    rfl
  · simp [clusterEvent?, Entry.call?, Entry.broadcast?, World.replay, cluster]
  · simp [clusterEvent?, Entry.call?, Entry.broadcast?, World.replay, cluster]

/-- A step of a server is a step of the cluster, or none. -/
theorem cluster_serve {node : N} {inner : ServerEvent (n node)}
    {server : Server (TieredStore DB) (n node)}
    (hserver : Server.step (hashes.of node) (settings node) (state.server node) inner =
      some server) :
    runSteps (Cluster.step hashes) state.cluster
        (matching hashes settings state (.serve node inner)) =
      some (cluster {
        server := Function.update state.server node server
        sent := state.sent ++
          (server.world.broadcasts.drop (state.server node).world.broadcasts.length).map
            fun record => (node, record) }) := by
  rw [matching, logged, hserver]
  dsimp only
  rcases Server.step_entry hserver with ⟨hworld, hlog⟩ | ⟨entry, hworld, hlog⟩
  · have hsame : cluster { state with server := Function.update state.server node server } =
        state.cluster := by
      refine congrArg (Cluster.mk · state.sent) (funext fun other => ?_)
      by_cases hnode : other = node
      · subst hnode
        dsimp only
        rw [Function.update_self, hworld]
      · dsimp only
        rw [Function.update_of_ne hnode]
    rw [hlog, hworld, List.drop_length, List.drop_length, List.filterMap_nil, List.map_nil,
      List.append_nil, hsame]
    rfl
  · rw [hlog, hworld, World.broadcasts_replay, List.drop_left, List.drop_left,
      filterMap_cons_eq_append, List.filterMap_nil, List.append_nil]
    exact cluster_replay hworld

/-- **A fleet refines the cluster of its stores.** -/
def simulation (hashes : NodeHashes N) (settings : N → SecuritySettings) :
    Simulation (step hashes settings : Fleet N DB n → FleetEvent N n → Option (Fleet N DB n))
      (Cluster.step hashes : Cluster N DB → ClusterEvent N → Option (Cluster N DB)) where
  Rel state abstract := abstract = state.cluster
  matching := matching hashes settings
  rel_step := by
    rintro state after _ event rfl hstep
    cases event with
    | serve node inner =>
        obtain ⟨server, hserver, rfl⟩ := step_cases hstep
        exact ⟨_, cluster_serve hserver, rfl⟩
    | deliver node message record =>
        obtain ⟨⟨origin, horigin, hsent⟩, rfl⟩ := step_cases hstep
        refine ⟨_, ?_, rfl⟩
        have hmessage : state.cluster.sent[message]? = some (origin, record) := hsent
        rw [matching, runSteps_cons, Cluster.step_deliver hmessage horigin, Option.bind_some,
          runSteps_nil]
        refine congrArg (some <| Cluster.mk · state.sent) (funext fun other => ?_)
        by_cases hnode : other = node
        · subst hnode
          dsimp only
          rw [Function.update_self, Function.update_self]
          rfl
        · dsimp only
          rw [Function.update_of_ne hnode, Function.update_of_ne hnode]
          rfl

end Fleet

end ServerGo.Network
