/-
# Nodes that replicate by broadcast

Every node has one store. A put is applied where it is issued and its record is
handed to the network, which delivers it to every other node at least once, in
no particular order, where it is applied as it comes. A node's own history is
then a run of its store, and every record in it was put somewhere. A node is a
process, with `AHasher` keys of its own: the nodes file a record they share under
entities, and in hot slots, that have nothing to do with each other.
-/

import ServerGo.Math.Steps
import ServerGo.Storage.TieredRun

namespace ServerGo.Network

open ServerGo.Math ServerGo.Storage

/-- The hash functions of the nodes: one SHA-256, and at each node the keys its process
has drawn. -/
structure NodeHashes (N : Type) where
  sha256 : Bytes → Hash32
  ahash : N → Hash32 → EntityId

namespace NodeHashes

variable {N : Type} (hashes : NodeHashes N)

/-- The hash functions of one node. -/
def of (node : N) : Hashes where
  sha256 := hashes.sha256
  ahash := hashes.ahash node

/-- The record of a put does not depend on where it is put. -/
theorem kvRecord_of (node other : N) (key val : Bytes) :
    kvRecord (hashes.of node) key val = kvRecord (hashes.of other) key val := rfl

end NodeHashes

/-- Two nodes that have drawn different keys. -/
def sampleNodeHashes : NodeHashes Bool where
  sha256 := sampleSha256
  ahash node := if node then otherKeys else sampleHashes.ahash

/-- What can happen in a cluster. -/
inductive ClusterEvent (N : Type)
  /-- A client puts at a node. -/
  | put (node : N) (key val : Bytes)
  /-- A message reaches a node, which applies the record it carries. -/
  | deliver (node : N) (message : Nat) (record : SignedRecord)
  /-- The background writer of a node takes a turn. -/
  | writerTurn (node : N)
  deriving DecidableEq

/-- The stores of the nodes, and the messages handed to the network with the
node that sent each. -/
structure Cluster (N DB : Type) where
  store : N → TieredStore DB
  sent : List (N × SignedRecord)

namespace Cluster

variable {N DB : Type}

/-- Every node opens its partition; nothing has been sent. -/
def start (db : N → DB) : Cluster N DB where
  store node := TieredStore.new (db node)
  sent := []

variable [DecidableEq N] [CdDB DB] (hashes : NodeHashes N)

/-- One event. A message is delivered only after it was sent, and not to its
sender. -/
def step (state : Cluster N DB) : ClusterEvent N → Option (Cluster N DB)
  | .put node key val =>
      let (store, broadcast) := L2Executor.put (hashes.of node) (state.store node) key val
      some {
        store := Function.update state.store node store
        sent := state.sent ++ (broadcast.map fun record => (node, record)).toList }
  | .deliver node message record =>
      match state.sent[message]? with
      | some (origin, carried) =>
          if origin ≠ node ∧ carried = record then
            some { state with
              store := Function.update state.store node
                ((state.store node).applySignedRecord (hashes.of node) record) }
          else none
      | none => none
  | .writerTurn node =>
      some { state with
        store := Function.update state.store node (state.store node).backgroundWrite }

/-- The cluster after a list of events, when each was possible in its turn. -/
abbrev run (start : Cluster N DB) (events : List (ClusterEvent N)) : Option (Cluster N DB) :=
  runSteps (step hashes) start events

/-- Every message has reached every node other than its sender. -/
def AllDelivered (state : Cluster N DB) (events : List (ClusterEvent N)) : Prop :=
  ∀ (message : Nat) (origin : N) (record : SignedRecord),
    state.sent[message]? = some (origin, record) →
      ∀ node, node ≠ origin → .deliver node message record ∈ events

end Cluster

namespace ClusterEvent

variable {N : Type} [DecidableEq N]

/-- What an event is to the store of a node. -/
def callAt (node : N) : ClusterEvent N → Option Call
  | .put other key val => if other = node then some (.put key val) else none
  | .deliver other _ record => if other = node then some (.apply record) else none
  | .writerTurn other => if other = node then some .writerTurn else none

/-- The record an event applies at a node. -/
def recordAt (hashes : NodeHashes N) (node : N) (event : ClusterEvent N) :
    Option SignedRecord :=
  (event.callAt node).bind (Call.record? (hashes.of node))

end ClusterEvent

namespace Cluster

variable {N DB : Type} [DecidableEq N] [CdDB DB] {hashes : NodeHashes N} {db : N → DB}
  {events : List (ClusterEvent N)} {state : Cluster N DB}

/-- What an event can do. -/
theorem step_cases {after : Cluster N DB} {event : ClusterEvent N} :
    step hashes state event = some after →
    match event with
    | .put node key val =>
        after = {
          store := Function.update state.store node
            ((Call.put key val).perform (hashes.of node) (state.store node))
          sent := state.sent ++
            if stressPrefix.isPrefixOf key then []
            else [(node, kvRecord (hashes.of node) key val)] }
    | .deliver node message record =>
        (∃ origin, origin ≠ node ∧ state.sent[message]? = some (origin, record)) ∧
        after = { state with
          store := Function.update state.store node
            ((Call.apply record).perform (hashes.of node) (state.store node)) }
    | .writerTurn node =>
        after = { state with
          store := Function.update state.store node
            (Call.writerTurn.perform (hashes.of node) (state.store node)) } := by
  intro hstep
  cases event with
  | put node key val =>
      rw [← Option.some.inj hstep]
      show Cluster.mk _ (state.sent ++ ((if stressPrefix.isPrefixOf key then none
        else some (kvRecord (hashes.of node) key val)).map fun record =>
          (node, record)).toList) = _
      split <;> rfl
  | deliver node message record =>
      rw [step] at hstep
      split at hstep
      next origin carried hsent =>
          obtain ⟨⟨horigin, rfl⟩, hafter⟩ := Option.ite_none_right_eq_some.mp hstep
          exact ⟨⟨origin, horigin, hsent⟩, (Option.some.inj hafter).symm⟩
      next => cases hstep
  | writerTurn node => exact (Option.some.inj hstep).symm

/-- A put is always possible. -/
theorem step_put (node : N) (key val : Bytes) :
    step hashes state (.put node key val) = some {
      store := Function.update state.store node
        ((Call.put key val).perform (hashes.of node) (state.store node))
      sent := state.sent ++
        if stressPrefix.isPrefixOf key then []
        else [(node, kvRecord (hashes.of node) key val)] } := by
  by_cases hstress : stressPrefix.isPrefixOf key
  · simp [step, L2Executor.put, Call.perform, hstress]
  · simp [step, L2Executor.put, Call.perform, hstress]

/-- A message that another node has sent can be delivered. -/
theorem step_deliver {node origin : N} {message : Nat} {record : SignedRecord}
    (hsent : state.sent[message]? = some (origin, record)) (horigin : origin ≠ node) :
    step hashes state (.deliver node message record) = some { state with
      store := Function.update state.store node
        ((Call.apply record).perform (hashes.of node) (state.store node)) } := by
  rw [step, hsent]
  exact if_pos ⟨horigin, rfl⟩

/-- The store of a node is what the events at that node make of it. -/
theorem store_run_from {first : Cluster N DB} (hrun : run hashes first events = some state)
    (node : N) :
    state.store node = Call.run (hashes.of node) (first.store node)
      (events.filterMap (ClusterEvent.callAt node)) := by
  refine runSteps_induction (motive := fun events (state : Cluster N DB) => state.store node =
    Call.run (hashes.of node) (first.store node) (events.filterMap (ClusterEvent.callAt node)))
    rfl ?_ hrun
  intro events before event after _ ih hstep
  -- an event is a call at the node it is at, and nothing at the others
  have hat : ∀ (other : N) (call : Call),
      event.callAt node = (if other = node then some call else none) →
        Function.update before.store other (call.perform (hashes.of other) (before.store other))
            node =
          Call.run (hashes.of node) (first.store node)
            ((events ++ [event]).filterMap (ClusterEvent.callAt node)) := by
    intro other call hcall
    by_cases hnode : other = node
    · subst hnode
      rw [if_pos rfl] at hcall
      simp [List.filterMap_append, hcall, ih]
    · rw [if_neg hnode] at hcall
      rw [Function.update_of_ne (Ne.symm hnode), ih]
      simp [List.filterMap_append, hcall]
  cases event with
  | put other key val =>
      cases step_cases hstep
      exact hat other _ rfl
  | deliver other message record =>
      obtain ⟨-, rfl⟩ := step_cases hstep
      exact hat other _ rfl
  | writerTurn other =>
      cases step_cases hstep
      exact hat other _ rfl

theorem store_run (hrun : run hashes (start db) events = some state) (node : N) :
    state.store node = Call.run (hashes.of node) (TieredStore.new (db node))
      (events.filterMap (ClusterEvent.callAt node)) :=
  store_run_from hrun node

/-- Only records that were put are sent. -/
theorem put_of_sent (hrun : run hashes (start db) events = some state) {origin : N}
    {record : SignedRecord} (hsent : (origin, record) ∈ state.sent) :
    ∃ key val, .put origin key val ∈ events ∧ record = kvRecord (hashes.of origin) key val := by
  revert hsent
  refine runSteps_induction (motive := fun events (state : Cluster N DB) =>
    (origin, record) ∈ state.sent →
      ∃ key val, .put origin key val ∈ events ∧ record = kvRecord (hashes.of origin) key val)
    ?_ ?_ hrun
  · intro hsent
    cases hsent
  intro events before event after _ ih hstep hsent
  have hold : (origin, record) ∈ before.sent →
      ∃ key val, .put origin key val ∈ events ++ [event] ∧
        record = kvRecord (hashes.of origin) key val := by
    intro hearlier
    obtain ⟨key, val, hmem, hrecord⟩ := ih hearlier
    exact ⟨key, val, List.mem_append_left _ hmem, hrecord⟩
  cases event with
  | put node key val =>
      cases step_cases hstep
      rcases List.mem_append.mp hsent with hearlier | hnew
      · exact hold hearlier
      · split at hnew
        · cases hnew
        · cases List.mem_singleton.mp hnew
          exact ⟨key, val, by simp, rfl⟩
  | deliver node message carried =>
      obtain ⟨-, rfl⟩ := step_cases hstep
      exact hold hsent
  | writerTurn node =>
      cases step_cases hstep
      exact hold hsent

/-- Every put on a key that is not a stress key is sent. -/
theorem sent_of_put (hrun : run hashes (start db) events = some state) {origin : N}
    {key val : Bytes} (hput : .put origin key val ∈ events)
    (hplain : stressPrefix.isPrefixOf key = false) :
    (origin, kvRecord (hashes.of origin) key val) ∈ state.sent := by
  revert hput
  refine runSteps_induction (motive := fun events (state : Cluster N DB) =>
    .put origin key val ∈ events → (origin, kvRecord (hashes.of origin) key val) ∈ state.sent)
    ?_ ?_ hrun
  · intro hput
    cases hput
  intro events before event after _ ih hstep hput
  cases event with
  | put node other stored =>
      cases step_cases hstep
      rcases List.mem_append.mp hput with hearlier | hnew
      · exact List.mem_append_left _ (ih hearlier)
      · cases List.mem_singleton.mp hnew
        simp [hplain]
  | deliver node message carried =>
      obtain ⟨-, rfl⟩ := step_cases hstep
      exact ih (by simpa using hput)
  | writerTurn node =>
      cases step_cases hstep
      exact ih (by simpa using hput)

/-- What is sent stays sent. -/
theorem sent_of_deliver (hrun : run hashes (start db) events = some state) {node : N}
    {message : Nat} {record : SignedRecord} (hdeliver : .deliver node message record ∈ events) :
    ∃ origin, (origin, record) ∈ state.sent := by
  revert hdeliver
  refine runSteps_induction (motive := fun events (state : Cluster N DB) =>
    .deliver node message record ∈ events → ∃ origin, (origin, record) ∈ state.sent) ?_ ?_ hrun
  · intro hdeliver
    cases hdeliver
  intro events before event after _ ih hstep hdeliver
  cases event with
  | put other key val =>
      cases step_cases hstep
      obtain ⟨origin, hsent⟩ := ih (by simpa using hdeliver)
      exact ⟨origin, List.mem_append_left _ hsent⟩
  | deliver other sent carried =>
      obtain ⟨⟨origin, -, hmessage⟩, rfl⟩ := step_cases hstep
      rcases List.mem_append.mp hdeliver with hearlier | hnew
      · exact ih hearlier
      · cases List.mem_singleton.mp hnew
        exact ⟨origin, List.mem_of_getElem? hmessage⟩
  | writerTurn other =>
      cases step_cases hstep
      exact ih (by simpa using hdeliver)

/-- Every record a node applies was put somewhere; where, cannot be told from it. -/
theorem put_of_recordAt (hrun : run hashes (start db) events = some state) {node : N}
    {event : ClusterEvent N} (hmem : event ∈ events) {record : SignedRecord}
    (hrecord : event.recordAt hashes node = some record) :
    ∃ origin key val, .put origin key val ∈ events ∧
      record = kvRecord (hashes.of node) key val := by
  obtain ⟨call, hcall, hrecord⟩ := Option.bind_eq_some_iff.mp hrecord
  cases event with
  | put other key val =>
      obtain ⟨-, hcall⟩ := Option.ite_none_right_eq_some.mp hcall
      cases hcall
      cases hrecord
      exact ⟨other, key, val, hmem, rfl⟩
  | deliver other message carried =>
      obtain ⟨-, hcall⟩ := Option.ite_none_right_eq_some.mp hcall
      cases hcall
      cases hrecord
      obtain ⟨origin, hsent⟩ := sent_of_deliver hrun hmem
      obtain ⟨key, val, hput, hkv⟩ := put_of_sent hrun hsent
      exact ⟨origin, key, val, hput, hkv.trans (hashes.kvRecord_of origin node key val)⟩
  | writerTurn other =>
      obtain ⟨-, hcall⟩ := Option.ite_none_right_eq_some.mp hcall
      cases hcall
      cases hrecord

/-- Once every message is delivered, every put on a key that is not a stress key
has been applied at every node. -/
theorem exists_recordAt_of_put (hrun : run hashes (start db) events = some state)
    (hdelivered : state.AllDelivered events) {origin : N} {key val : Bytes}
    (hput : .put origin key val ∈ events) (hplain : stressPrefix.isPrefixOf key = false)
    (node : N) :
    ∃ event ∈ events, event.recordAt hashes node = some (kvRecord (hashes.of node) key val) := by
  by_cases hnode : node = origin
  · exact ⟨_, hput, by simp [ClusterEvent.recordAt, ClusterEvent.callAt, Call.record?, hnode]⟩
  · obtain ⟨message, hmessage⟩ := List.mem_iff_getElem?.mp (sent_of_put hrun hput hplain)
    refine ⟨_, hdelivered message origin _ hmessage node hnode, ?_⟩
    rw [hashes.kvRecord_of origin node]
    simp [ClusterEvent.recordAt, ClusterEvent.callAt, Call.record?]

end Cluster

end ServerGo.Network
