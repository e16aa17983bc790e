/-
# What a node can see of the others

Puts on stress keys are kept from the network. So what a node answers depends on what
happens at that node and on the plain puts elsewhere, which it may be sent, and on
nothing more: a run with everything else left out leaves the node with the same
store, and no two runs that differ only in the rest can be told apart there, nor two
clusters whose other nodes have drawn other `AHasher` keys.
-/

import ServerGo.Math.Simulation
import ServerGo.Network.Replication

namespace ServerGo.Analysis

open ServerGo.Math ServerGo.Network ServerGo.Storage

variable {N DB : Type} [DecidableEq N] [CdDB DB] {hashes others : NodeHashes N}
  {db : N → DB}
  {events : List (ClusterEvent N)} {state : Cluster N DB}

/-- Whether a node can see an event: one at that node, or a put elsewhere that is
sent. -/
def isSeenAt (node : N) : ClusterEvent N → Bool
  | .put other key _ => other == node || !stressPrefix.isPrefixOf key
  | .deliver other _ _ => other == node
  | .writerTurn other => other == node

/-- Two clusters that one node cannot tell apart. -/
structure AgreeAt (node : N) (state other : Cluster N DB) : Prop where
  store : other.store node = state.store node
  sent : other.sent = state.sent

variable {node : N} {after alone : Cluster N DB} {event : ClusterEvent N}

omit [CdDB DB] in
/-- An event at another node leaves the store of this one alone. -/
theorem AgreeAt.elsewhere (hagree : AgreeAt node state alone) {other : N} (hnode : other ≠ node)
    (store : TieredStore DB) :
    AgreeAt node { state with store := Function.update state.store other store } alone where
  store := by
    dsimp only
    rw [Function.update_of_ne (Ne.symm hnode)]
    exact hagree.store
  sent := hagree.sent

/-- An event at the node does there what it does there, whatever keys the others have. -/
theorem AgreeAt.at_node (hsame : others.of node = hashes.of node)
    (hagree : AgreeAt node state alone) (call : Call) :
    AgreeAt node
      { state with
        store := Function.update state.store node
          (call.perform (hashes.of node) (state.store node)) }
      { alone with
        store := Function.update alone.store node
          (call.perform (others.of node) (alone.store node)) } where
  store := by
    dsimp only
    rw [Function.update_self, Function.update_self, hagree.store, hsame]
  sent := hagree.sent

/-- What the node cannot see, it need not have happened. -/
theorem AgreeAt.of_not_seen (hagree : AgreeAt node state alone)
    (hseen : isSeenAt node event = false) (hstep : Cluster.step hashes state event = some after) :
    AgreeAt node after alone := by
  cases event with
  | put other key val =>
      cases Cluster.step_cases hstep
      obtain ⟨hnode, hstress⟩ := Bool.or_eq_false_iff.mp hseen
      rw [Bool.not_eq_false'] at hstress
      rw [if_pos hstress, List.append_nil]
      exact hagree.elsewhere (by simpa using hnode) _
  | deliver other message record =>
      obtain ⟨-, rfl⟩ := Cluster.step_cases hstep
      exact hagree.elsewhere (by simpa [isSeenAt] using hseen) _
  | writerTurn other =>
      cases Cluster.step_cases hstep
      exact hagree.elsewhere (by simpa [isSeenAt] using hseen) _

/-- What it can see, can happen without the rest. -/
theorem AgreeAt.of_seen (hsame : others.of node = hashes.of node)
    (hagree : AgreeAt node state alone) (hseen : isSeenAt node event = true)
    (hstep : Cluster.step hashes state event = some after) :
    ∃ aloneAfter, Cluster.step others alone event = some aloneAfter ∧
      AgreeAt node after aloneAfter := by
  cases event with
  | put other key val =>
      cases Cluster.step_cases hstep
      have hrecord : kvRecord (others.of other) key val = kvRecord (hashes.of other) key val :=
        calc kvRecord (others.of other) key val
          _ = kvRecord (others.of node) key val := others.kvRecord_of ..
          _ = kvRecord (hashes.of node) key val := by rw [hsame]
          _ = kvRecord (hashes.of other) key val := hashes.kvRecord_of ..
      refine ⟨_, Cluster.step_put other key val, ?_, hrecord ▸ congrArg (· ++ _) hagree.sent⟩
      by_cases hnode : other = node
      · subst hnode
        exact (hagree.at_node hsame (.put key val)).store
      · dsimp only
        rw [Function.update_of_ne (Ne.symm hnode), Function.update_of_ne (Ne.symm hnode)]
        exact hagree.store
  | deliver other message record =>
      obtain ⟨⟨origin, horigin, hmessage⟩, rfl⟩ := Cluster.step_cases hstep
      obtain rfl : other = node := beq_iff_eq.mp hseen
      exact ⟨_, Cluster.step_deliver (hagree.sent ▸ hmessage) horigin,
        hagree.at_node hsame (.apply record)⟩
  | writerTurn other =>
      cases Cluster.step_cases hstep
      obtain rfl : other = node := beq_iff_eq.mp hseen
      exact ⟨_, rfl, hagree.at_node hsame .writerTurn⟩

/-- A cluster, and one with only what one node can see, which has the same keys. -/
def seenAt {node : N} (hsame : others.of node = hashes.of node) :
    Simulation (Cluster.step hashes : Cluster N DB → ClusterEvent N → Option (Cluster N DB))
      (Cluster.step others : Cluster N DB → ClusterEvent N → Option (Cluster N DB)) where
  Rel state alone := AgreeAt node state alone
  matching _ event := (Option.guard (isSeenAt node) event).toList
  rel_step := by
    rintro state after alone event hagree hstep
    cases hseen : isSeenAt node event with
    | true =>
        obtain ⟨aloneAfter, halone, hafter⟩ := hagree.of_seen hsame hseen hstep
        refine ⟨aloneAfter, ?_, hafter⟩
        rw [Option.guard, if_pos hseen, Option.toList_some, runSteps_cons, halone]
        rfl
    | false =>
        refine ⟨alone, ?_, hagree.of_not_seen hseen hstep⟩
        rw [Option.guard, if_neg (Bool.eq_false_iff.mp hseen)]
        rfl

/-- A run goes through with only what one node can see, and to that node it makes no
difference. -/
theorem exists_run_seenAt (hsame : others.of node = hashes.of node)
    (hrun : Cluster.run hashes (Cluster.start db) events = some state) :
    ∃ alone, Cluster.run others (Cluster.start db) (events.filter (isSeenAt node)) = some alone ∧
      AgreeAt node state alone := by
  obtain ⟨alone, halone, hagree⟩ := (seenAt hsame).rel_run ⟨rfl, rfl⟩ hrun
  refine ⟨alone, ?_, hagree⟩
  rwa [(seenAt hsame).trace_eq_filterMap (fun _ _ => rfl) hrun,
    List.filterMap_eq_filter] at halone

/-- **What a node cannot see makes no difference to it.** If two runs of a cluster
have the same events at a node and the same plain puts elsewhere, in one order, then
the node answers every key alike after both: whatever keys the other nodes have drawn,
whatever is put there on stress keys, whatever is delivered there and whenever the
writers there take their turns. -/
theorem answers_eq_of_seen_eq {first second : List (ClusterEvent N)} {firstState secondState}
    {node : N} (hsame : others.of node = hashes.of node)
    (hfirst : Cluster.run hashes (Cluster.start db) first = some firstState)
    (hsecond : Cluster.run others (Cluster.start db) second = some secondState)
    (hseen : first.filter (isSeenAt node) = second.filter (isSeenAt node)) (key : Bytes) :
    L2Executor.get (hashes.of node) (firstState.store node) key =
      L2Executor.get (others.of node) (secondState.store node) key := by
  obtain ⟨firstAlone, hfirstAlone, hfirstAgree⟩ := exists_run_seenAt hsame hfirst
  obtain ⟨secondAlone, hsecondAlone, hsecondAgree⟩ := exists_run_seenAt rfl hsecond
  rw [hseen, hsecondAlone] at hfirstAlone
  cases hfirstAlone
  rw [← hfirstAgree.store, ← hsecondAgree.store, hsame]

/-- A node puts, while another is put under stress. -/
def besideStress : List (ClusterEvent Bool) :=
  [.put true (stressPrefix ++ keyA) [1], .put false keyA [2], .writerTurn true, .writerTurn false]

/-- Two nodes that happen to have drawn the same keys. -/
def sharedKeys : NodeHashes Bool where
  sha256 := sampleSha256
  ahash _ := sampleHashes.ahash

/-- The first node cannot tell whether the second is under stress, nor which keys it has
drawn. -/
theorem answers_eq_of_seen_eq_besideStress :
    ∃ busy idle : Cluster Bool (ReferenceDB 8),
      Cluster.run sampleNodeHashes (Cluster.start fun _ => ReferenceDB.empty) besideStress =
        some busy ∧
      Cluster.run sharedKeys (Cluster.start fun _ => ReferenceDB.empty)
        [.put false keyA [2], .writerTurn false] = some idle ∧
      ∀ key, L2Executor.get (sampleNodeHashes.of false) (busy.store false) key =
        L2Executor.get (sharedKeys.of false) (idle.store false) key := by
  obtain ⟨busy, hbusy⟩ : ∃ busy : Cluster Bool (ReferenceDB 8), Cluster.run sampleNodeHashes
      (Cluster.start fun _ => ReferenceDB.empty) besideStress = some busy := ⟨_, rfl⟩
  obtain ⟨idle, hidle⟩ : ∃ idle : Cluster Bool (ReferenceDB 8), Cluster.run sharedKeys
      (Cluster.start fun _ => ReferenceDB.empty) [.put false keyA [2], .writerTurn false] =
        some idle := ⟨_, rfl⟩
  have hsame : sharedKeys.of false = sampleNodeHashes.of false := rfl
  exact ⟨busy, idle, hbusy, hidle, answers_eq_of_seen_eq hsame hbusy hidle rfl⟩

end ServerGo.Analysis
