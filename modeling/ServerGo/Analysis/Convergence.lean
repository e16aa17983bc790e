/-
# When replicas converge

A put carries epoch 0 and no other mark of its order, and a delivered record
replaces whatever its slot holds. So a node ends, for each key, on the value
that reached it last. Puts on one key that cross on their way leave the nodes
with different values for good: all nodes agree exactly when, for every key, the
value that arrived last is the same everywhere.

Each node computes hot slots under keys of its own. So a key that was never put may
fall beside a put key at one node and alone at another, which then answer it
differently; the nodes are compared on the keys of which this is not so.
-/

import ServerGo.Network.Replication

namespace ServerGo.Analysis

open ServerGo.Math ServerGo.Network ServerGo.Storage

variable {N DB : Type} [DecidableEq N] [CdDB DB] {hashes : NodeHashes N}

/-- The record an event applies at a node at the address of a key. -/
def arrivalAt (hashes : NodeHashes N) (node : N) (key : Bytes) (event : ClusterEvent N) :
    Option SignedRecord :=
  (event.recordAt hashes node).bind fun record =>
    if (hashes.of node).address record.payload = hashes.sha256 key then some record else none

/-- The value of a key that reached a node last, by a put there or a delivery. -/
def lastArrival (hashes : NodeHashes N) (node : N) (key : Bytes)
    (events : List (ClusterEvent N)) : Option Bytes :=
  (latest (arrivalAt hashes node key) events).map SignedRecord.value

/-- All nodes answer a key alike. -/
def AnswerAlike (hashes : NodeHashes N) (state : Cluster N DB) (key : Bytes) : Prop :=
  ∀ first second, L2Executor.get (hashes.of first) (state.store first) key =
    L2Executor.get (hashes.of second) (state.store second) key

/-- The keys put that fall in the slot of this key are the same at all nodes. -/
def SlotsAlike (hashes : NodeHashes N) (events : List (ClusterEvent N)) (key : Bytes) : Prop :=
  ∀ first second origin other val, .put origin other val ∈ events →
    keySlot (hashes.of first) other = keySlot (hashes.of first) key →
      keySlot (hashes.of second) other = keySlot (hashes.of second) key

/-- All nodes answer alike every key that has the same neighbours at all of them. -/
def Converged (hashes : NodeHashes N) (events : List (ClusterEvent N)) (state : Cluster N DB) :
    Prop :=
  ∀ key, SlotsAlike hashes events key → AnswerAlike hashes state key

/-- For every key the value that arrived last is the same at all nodes. -/
def LastArrivalsAgree (hashes : NodeHashes N) (events : List (ClusterEvent N)) : Prop :=
  ∀ first second key, lastArrival hashes first key events = lastArrival hashes second key events

/-- The keys put are, at every node, in different hot slots. -/
def KeysSeparate (hashes : NodeHashes N) (events : List (ClusterEvent N)) : Prop :=
  ∀ node first key val second other stored, .put first key val ∈ events →
    .put second other stored ∈ events →
      keySlot (hashes.of node) key = keySlot (hashes.of node) other → key = other

omit [DecidableEq N] in
/-- A key that was put has no neighbour but itself. -/
theorem KeysSeparate.slotsAlike {events : List (ClusterEvent N)}
    (hseparate : KeysSeparate hashes events) {origin : N} {key val : Bytes}
    (hput : .put origin key val ∈ events) : SlotsAlike hashes events key := by
  intro first second source other stored hother hslot
  rw [hseparate first _ _ _ _ _ _ hother hput hslot]

/-- No put is on a key that is kept from the network. -/
def NoStressKeys (events : List (ClusterEvent N)) : Prop :=
  ∀ node key val, .put node key val ∈ events → stressPrefix.isPrefixOf key = false

/-- Keys of one address are told apart by no arrival. -/
theorem lastArrival_of_address {node : N} {key other : Bytes} {events : List (ClusterEvent N)}
    (haddress : hashes.sha256 other = hashes.sha256 key) :
    lastArrival hashes node key events = lastArrival hashes node other events := by
  have harrival : arrivalAt hashes node key = arrivalAt hashes node other := by
    funext event
    rw [arrivalAt, arrivalAt, haddress]
  rw [lastArrival, lastArrival, harrival]

section

variable {db : N → DB} {events : List (ClusterEvent N)} {state : Cluster N DB}

/-- At a node, the slot of a key that was put holds what last arrived for that
key. -/
theorem lastInSlot_callAt (hrun : Cluster.run hashes (Cluster.start db) events = some state)
    (hseparate : KeysSeparate hashes events) {origin : N} {key val : Bytes}
    (hput : .put origin key val ∈ events) (node : N) :
    lastInSlot (hashes.of node) (keySlot (hashes.of node) key)
        (events.filterMap (ClusterEvent.callAt node)) =
      latest (arrivalAt hashes node key) events := by
  rw [lastInSlot, latest_filterMap]
  apply latest_congr
  intro event hmem
  rw [← Option.bind_assoc, ← ClusterEvent.recordAt, arrivalAt]
  cases hrecord : event.recordAt hashes node with
  | none => rfl
  | some record =>
      obtain ⟨source, other, stored, hother, rfl⟩ := Cluster.put_of_recordAt hrun hmem hrecord
      simp only [Option.bind_some, entityId_kvRecord, address_kvRecord, hotSlot_ahash_sha256]
      by_cases hslot : keySlot (hashes.of node) other = keySlot (hashes.of node) key
      · obtain rfl := hseparate node _ _ _ _ _ _ hother hput hslot
        rw [if_pos rfl]
        exact (if_pos rfl).symm
      · have haddress : hashes.sha256 other ≠ hashes.sha256 key := fun haddress =>
          hslot (congrArg (fun hash => hotSlot (hashes.ahash node hash)) haddress)
        rw [if_neg hslot]
        exact (if_neg haddress).symm

/-- A slot that no put key lies in at a node stays empty there. -/
theorem lastInSlot_callAt_eq_none
    (hrun : Cluster.run hashes (Cluster.start db) events = some state) {node : N} {slot : Nat}
    (hnone : ∀ origin key val, .put origin key val ∈ events →
      keySlot (hashes.of node) key ≠ slot) :
    lastInSlot (hashes.of node) slot (events.filterMap (ClusterEvent.callAt node)) = none := by
  rw [lastInSlot, latest_filterMap, latest_eq_none_iff]
  intro event hmem
  rw [← Option.bind_assoc, ← ClusterEvent.recordAt]
  cases hrecord : event.recordAt hashes node with
  | none => rfl
  | some record =>
      obtain ⟨source, other, stored, hother, rfl⟩ := Cluster.put_of_recordAt hrun hmem hrecord
      simp [hnone source other stored hother]

/-- Nothing has arrived for a key whose address no put key has. -/
theorem lastArrival_eq_none (hrun : Cluster.run hashes (Cluster.start db) events = some state)
    {key : Bytes} (hnone : ∀ origin other val, .put origin other val ∈ events →
      hashes.sha256 other ≠ hashes.sha256 key) (node : N) :
    lastArrival hashes node key events = none := by
  rw [lastArrival, Option.map_eq_none_iff, latest_eq_none_iff]
  intro event hmem
  rw [arrivalAt]
  cases hrecord : event.recordAt hashes node with
  | none => rfl
  | some record =>
      obtain ⟨origin, other, val, hother, rfl⟩ := Cluster.put_of_recordAt hrun hmem hrecord
      rw [Option.bind_some, address_kvRecord]
      exact if_neg (hnone origin other val hother)

/-- Something has arrived everywhere for every key that was put. -/
theorem latest_arrivalAt_ne_none (hrun : Cluster.run hashes (Cluster.start db) events = some state)
    (hplain : NoStressKeys events) (hdelivered : state.AllDelivered events) {origin : N}
    {key val : Bytes} (hput : .put origin key val ∈ events) (node : N) :
    latest (arrivalAt hashes node key) events ≠ none := by
  intro hnone
  obtain ⟨event, hmem, hrecord⟩ :=
    Cluster.exists_recordAt_of_put hrun hdelivered hput (hplain _ _ _ hput) node
  have hevent := latest_eq_none_iff.mp hnone event hmem
  rw [arrivalAt, hrecord, Option.bind_some, address_kvRecord] at hevent
  exact Option.some_ne_none _ ((if_pos rfl).symm.trans hevent)

variable [LawfulCdDB DB]

/-- A get answers from the calls at its node. -/
theorem get_store_run (hidle : ∀ node, CdDB.IsIdle (db node))
    (hrun : Cluster.run hashes (Cluster.start db) events = some state) (node : N) (key : Bytes) :
    L2Executor.get (hashes.of node) (state.store node) key =
      ((lastInSlot (hashes.of node) (keySlot (hashes.of node) key)
        (events.filterMap (ClusterEvent.callAt node))).map SignedRecord.value).or
          (L2Executor.get (hashes.of node) (TieredStore.new (db node)) key) := by
  have hstart : L2Executor.get (hashes.of node) (TieredStore.new (db node)) key = _ :=
    TieredStore.get_run (hidle node) [] key
  rw [Cluster.store_run hrun, TieredStore.get_run (hidle node), Option.map_or]
  exact congrArg _ hstart.symm

/-- Every key in the slot of a key that was put is answered with the value that
arrived last for the latter. -/
theorem get_eq_lastArrival (hidle : ∀ node, CdDB.IsIdle (db node))
    (hrun : Cluster.run hashes (Cluster.start db) events = some state)
    (hseparate : KeysSeparate hashes events) (hplain : NoStressKeys events)
    (hdelivered : state.AllDelivered events) {origin : N} {key val : Bytes}
    (hput : .put origin key val ∈ events) {asked : Bytes} {node : N}
    (hslot : keySlot (hashes.of node) key = keySlot (hashes.of node) asked) :
    L2Executor.get (hashes.of node) (state.store node) asked =
      lastArrival hashes node key events := by
  obtain ⟨record, hrecord⟩ := Option.ne_none_iff_exists'.mp
    (latest_arrivalAt_ne_none hrun hplain hdelivered hput node)
  rw [get_store_run hidle hrun, ← hslot, lastInSlot_callAt hrun hseparate hput, hrecord,
    lastArrival, hrecord]
  rfl

end

/-- **When replicas converge.** Nodes that answer alike when opened take puts, on keys
that are in pairwise different hot slots at every node, and deliveries in any order,
with duplicates; once every message has reached every other node, all nodes answer
alike if and only if for every key the value that arrived last is the same at all of
them. -/
theorem converged_iff [LawfulCdDB DB] {db : N → DB} (hidle : ∀ node, CdDB.IsIdle (db node))
    (hopen : ∀ key, AnswerAlike hashes (Cluster.start db) key) {events : List (ClusterEvent N)}
    {state : Cluster N DB} (hrun : Cluster.run hashes (Cluster.start db) events = some state)
    (hseparate : KeysSeparate hashes events) (hplain : NoStressKeys events)
    (hdelivered : state.AllDelivered events) :
    Converged hashes events state ↔ LastArrivalsAgree hashes events := by
  constructor
  · intro hconverged first second key
    by_cases hput : ∃ origin other val, .put origin other val ∈ events ∧
        hashes.sha256 other = hashes.sha256 key
    · obtain ⟨origin, other, val, hput, haddress⟩ := hput
      rw [lastArrival_of_address haddress, lastArrival_of_address haddress,
        ← get_eq_lastArrival hidle hrun hseparate hplain hdelivered hput rfl,
        ← get_eq_lastArrival hidle hrun hseparate hplain hdelivered hput rfl]
      exact hconverged other (hseparate.slotsAlike hput) first second
    · -- no record at the address of the key was ever put, so none has arrived
      have hnone := lastArrival_eq_none hrun
        fun origin other val hother haddress => hput ⟨origin, other, val, hother, haddress⟩
      rw [hnone, hnone]
  · intro hagree key halike first second
    by_cases hput : ∃ origin other val, .put origin other val ∈ events ∧
        keySlot (hashes.of first) other = keySlot (hashes.of first) key
    · obtain ⟨origin, other, val, hput, hslot⟩ := hput
      rw [get_eq_lastArrival hidle hrun hseparate hplain hdelivered hput hslot,
        get_eq_lastArrival hidle hrun hseparate hplain hdelivered hput
          (halike first second _ _ _ hput hslot)]
      exact hagree first second other
    · -- nothing was put beside the key at the one node, nor then at the other
      have hfirst := lastInSlot_callAt_eq_none hrun
        fun origin other val hother hslot => hput ⟨origin, other, val, hother, hslot⟩
      have hsecond := lastInSlot_callAt_eq_none hrun fun origin other val hother hslot =>
        hput ⟨origin, other, val, hother, halike second first _ _ _ hother hslot⟩
      rw [get_store_run hidle hrun, get_store_run hidle hrun, hfirst, hsecond]
      exact hopen key first second

/-- Two puts on one key, the second issued after the first has arrived. -/
def ordered : List (ClusterEvent Bool) :=
  [.put false keyA [1], .deliver true 0 (kvRecord sampleHashes keyA [1]), .put true keyA [2],
    .deliver false 1 (kvRecord sampleHashes keyA [2])]

/-- Two puts on one key that cross on their way. -/
def crossing : List (ClusterEvent Bool) :=
  [.put false keyA [1], .put true keyA [2], .deliver true 0 (kvRecord sampleHashes keyA [1]),
    .deliver false 1 (kvRecord sampleHashes keyA [2])]

/-- Both put on one key only, and not on a stress key. -/
theorem keysSeparate_noStressKeys {events : List (ClusterEvent Bool)}
    (hevents : events ∈ [ordered, crossing]) :
    KeysSeparate sampleNodeHashes events ∧ NoStressKeys events := by
  have hkey : ∀ node key val, .put node key val ∈ events → key = keyA := by
    intro node key val hput
    simp only [List.mem_cons, List.not_mem_nil, or_false] at hevents
    rcases hevents with rfl | rfl <;> simp [ordered, crossing] at hput <;> tauto
  constructor
  · intro node first key val second other stored hput hother _
    rw [hkey _ _ _ hput, hkey _ _ _ hother]
  · intro node key val hput
    rw [hkey _ _ _ hput]
    rfl

omit [DecidableEq N] in
/-- Nodes on empty partitions answer alike, whatever keys they have. -/
theorem answerAlike_start_empty (hashes : NodeHashes N) (key : Bytes) :
    AnswerAlike hashes (Cluster.start fun _ => (ReferenceDB.empty : ReferenceDB 8)) key := by
  have hidle : CdDB.IsIdle (ReferenceDB.empty : ReferenceDB 8) := rfl
  have hnone (node : N) : L2Executor.get (hashes.of node)
      (TieredStore.new (ReferenceDB.empty : ReferenceDB 8)) key = none :=
    TieredStore.get_run hidle [] key
  exact fun first second => (hnone first).trans (hnone second).symm

/-- Both are runs that deliver every message. -/
theorem exists_run_delivered {events : List (ClusterEvent Bool)}
    (hevents : events ∈ [ordered, crossing]) :
    ∃ state : Cluster Bool (ReferenceDB 8),
      Cluster.run sampleNodeHashes (Cluster.start fun _ => ReferenceDB.empty) events = some state ∧
        state.AllDelivered events := by
  simp only [List.mem_cons, List.not_mem_nil, or_false] at hevents
  rcases hevents with rfl | rfl
  all_goals
    refine ⟨_, rfl, ?_⟩
    rintro (_ | _ | message) origin record hsent (_ | _) hnode <;> cases hsent
    all_goals first | exact (hnode rfl).elim | (simp [ordered, crossing]; rfl)

theorem converged_iff_ordered :
    ∃ state : Cluster Bool (ReferenceDB 8),
      Cluster.run sampleNodeHashes (Cluster.start fun _ => ReferenceDB.empty) ordered = some state ∧
        (Converged sampleNodeHashes ordered state ↔
          LastArrivalsAgree sampleNodeHashes ordered) := by
  obtain ⟨state, hrun, hdelivered⟩ := exists_run_delivered (List.mem_cons_self ..)
  obtain ⟨hseparate, hplain⟩ := keysSeparate_noStressKeys (List.mem_cons_self ..)
  have hidle : ∀ _ : Bool, CdDB.IsIdle (ReferenceDB.empty : ReferenceDB 8) := fun _ => rfl
  exact ⟨state, hrun, converged_iff hidle (answerAlike_start_empty _) hrun hseparate
    hplain hdelivered⟩

/-- Crossing puts leave each node with the value put at the other. -/
theorem not_converged_of_crossing :
    ∃ state : Cluster Bool (ReferenceDB 8),
      Cluster.run sampleNodeHashes (Cluster.start fun _ => ReferenceDB.empty) crossing =
        some state ∧
        KeysSeparate sampleNodeHashes crossing ∧ NoStressKeys crossing ∧
        state.AllDelivered crossing ∧ ¬AnswerAlike sampleNodeHashes state keyA := by
  have hcrossing : crossing ∈ [ordered, crossing] := by simp
  obtain ⟨state, hrun, hdelivered⟩ := exists_run_delivered hcrossing
  obtain ⟨hseparate, hplain⟩ := keysSeparate_noStressKeys hcrossing
  refine ⟨state, hrun, hseparate, hplain, hdelivered, fun halike => ?_⟩
  have hput : .put false keyA [1] ∈ crossing := List.mem_cons_self ..
  have hidle : ∀ _ : Bool, CdDB.IsIdle (ReferenceDB.empty : ReferenceDB 8) := fun _ => rfl
  have hsame := halike false true
  rw [get_eq_lastArrival hidle hrun hseparate hplain hdelivered hput rfl,
    get_eq_lastArrival hidle hrun hseparate hplain hdelivered hput rfl] at hsame
  exact absurd hsame (by decide)

end ServerGo.Analysis
