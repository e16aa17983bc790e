/-
# Nodes that are killed and come back

A node of a cluster may be killed at any moment and started again on the same
partition. It comes back with an empty hot index, without the commands that still
waited, and with `AHasher` keys of its new process; the messages it has handed to the
network stay there, and nothing is delivered to it again for its sake.
-/

import ServerGo.Network.Replication

namespace ServerGo.Network

open ServerGo.Math ServerGo.Storage

/-- What can happen in a cluster whose nodes may fail. -/
inductive OutageEvent (N : Type)
  | live (event : ClusterEvent N)
  /-- A node is killed and started again; the new process draws these keys. -/
  | restart (node : N) (ahash : Hash32 → EntityId)

/-- What happens that is no outage. -/
def OutageEvent.live? {N : Type} : OutageEvent N → Option (ClusterEvent N)
  | .live event => some event
  | .restart _ _ => none

/-- A cluster, with the hash functions of the processes that now run its nodes. -/
structure FailingCluster (N DB : Type) where
  cluster : Cluster N DB
  hashes : NodeHashes N

namespace FailingCluster

variable {N DB : Type}

/-- Every node opens its partition with the keys it has drawn. -/
def start (hashes : NodeHashes N) (db : N → DB) : FailingCluster N DB :=
  ⟨Cluster.start db, hashes⟩

variable [DecidableEq N]

/-- A node with the keys of a new process. -/
def rekey (hashes : NodeHashes N) (node : N) (ahash : Hash32 → EntityId) : NodeHashes N :=
  { hashes with ahash := Function.update hashes.ahash node ahash }

theorem rekey_of_self (hashes : NodeHashes N) (node : N) (ahash : Hash32 → EntityId) :
    (rekey hashes node ahash).of node = (hashes.of node).withKeys ahash := by
  simp only [rekey, NodeHashes.of, Function.update_self, Hashes.withKeys]

theorem rekey_of_ne (hashes : NodeHashes N) {node other : N} (hother : other ≠ node)
    (ahash : Hash32 → EntityId) : (rekey hashes node ahash).of other = hashes.of other := by
  simp only [rekey, NodeHashes.of, Function.update_of_ne hother]

variable [CdDB DB]

/-- One event, an outage included. -/
def step (state : FailingCluster N DB) : OutageEvent N → Option (FailingCluster N DB)
  | .live event =>
      (Cluster.step state.hashes state.cluster event).map fun cluster =>
        { state with cluster := cluster }
  | .restart node ahash =>
      some {
        cluster := { state.cluster with
          store := Function.update state.cluster.store node
            (state.cluster.store node).restart }
        hashes := rekey state.hashes node ahash }

/-- The cluster after a list of events, when each was possible in its turn. -/
abbrev run (start : FailingCluster N DB) (events : List (OutageEvent N)) :
    Option (FailingCluster N DB) :=
  runSteps step start events

/-- What an event can do. -/
theorem step_cases {state after : FailingCluster N DB} {event : OutageEvent N}
    (hstep : step state event = some after) :
    match event with
    | .live event =>
        ∃ cluster, Cluster.step state.hashes state.cluster event = some cluster ∧
          after = { state with cluster := cluster }
    | .restart node ahash =>
        after = {
          cluster := { state.cluster with
            store := Function.update state.cluster.store node
              (state.cluster.store node).restart }
          hashes := rekey state.hashes node ahash } := by
  cases event with
  | live event =>
      obtain ⟨cluster, hcluster, hafter⟩ := Option.map_eq_some_iff.mp hstep
      exact ⟨cluster, hcluster, hafter.symm⟩
  | restart node ahash => exact (Option.some.inj hstep).symm

end FailingCluster

end ServerGo.Network
