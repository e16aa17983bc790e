/-
# What outages cannot do

However often nodes are killed and come back, whatever a node answers was put
somewhere or recovered before the run: an outage loses values, brings back older ones
and, under its new keys, may find one under the key of another, but makes up none. And
a node that stays up answers as if there had been no outage anywhere.
-/

import ServerGo.Analysis.AtomicReads
import ServerGo.Analysis.Locality
import ServerGo.Network.Outages
import ServerGo.Storage.Origins

namespace ServerGo.Analysis

open ServerGo.Math ServerGo.Network ServerGo.Storage

variable {N DB : Type} [DecidableEq N] [CdDB DB] {hashes : NodeHashes N} {db : N → DB}
  {events : List (OutageEvent N)} {state : FailingCluster N DB}

/-! ## Nothing is made up -/

/-- The record of a put made so far. -/
def IsPutRecord (hashes : NodeHashes N) (events : List (OutageEvent N))
    (record : SignedRecord) : Prop :=
  ∃ origin key val, .live (.put origin key val) ∈ events ∧
    record = kvRecord (hashes.of origin) key val

/-- Keys that a process of this node has drawn so far: the first, or a later one. -/
def HadKeys (hashes : NodeHashes N) (events : List (OutageEvent N)) (node : N)
    (ahash : Hash32 → EntityId) : Prop :=
  ahash = hashes.ahash node ∨ .restart node ahash ∈ events

/-- The record of a put, at the entity where a process of the node has filed it. -/
def FiledAt (hashes : NodeHashes N) (events : List (OutageEvent N)) (node : N)
    (entityId : EntityId) (record : SignedRecord) : Prop :=
  IsPutRecord hashes events record ∧ ∃ ahash, HadKeys hashes events node ahash ∧
    ((hashes.of node).withKeys ahash).entityId record = entityId

section

omit [DecidableEq N]

theorem IsPutRecord.concat {event : OutageEvent N} {record : SignedRecord}
    (hput : IsPutRecord hashes events record) : IsPutRecord hashes (events ++ [event]) record := by
  obtain ⟨origin, key, val, hmem, hrecord⟩ := hput
  exact ⟨origin, key, val, List.mem_append_left _ hmem, hrecord⟩

theorem HadKeys.concat {event : OutageEvent N} {node : N} {ahash : Hash32 → EntityId}
    (hkeys : HadKeys hashes events node ahash) : HadKeys hashes (events ++ [event]) node ahash :=
  hkeys.imp_right (List.mem_append_left _)

theorem FiledAt.concat {event : OutageEvent N} {node : N} {entityId : EntityId}
    {record : SignedRecord} (hfiled : FiledAt hashes events node entityId record) :
    FiledAt hashes (events ++ [event]) node entityId record := by
  obtain ⟨hput, ahash, hkeys, hentity⟩ := hfiled
  exact ⟨hput.concat, ahash, hkeys.concat, hentity⟩

end

/-- The stores and the network hold only records that were put, and what was recovered
before; the processes that run now have drawn some of the keys. -/
structure HoldsPuts (hashes : NodeHashes N) (db : N → DB) (events : List (OutageEvent N))
    (state : FailingCluster N DB) : Prop where
  store : ∀ node, (state.cluster.store node).HoldsOnly (state.hashes.of node)
    (CdDB.contents (db node)).rows (IsPutRecord hashes events) (FiledAt hashes events node)
  sent : ∀ origin record, (origin, record) ∈ state.cluster.sent →
    IsPutRecord hashes events record
  sha256 : state.hashes.sha256 = hashes.sha256
  ahash : ∀ node, HadKeys hashes events node (state.hashes.ahash node)

omit [DecidableEq N] in
/-- The hash functions of a process are those of its node with the keys it has drawn. -/
theorem HoldsPuts.of_eq (hholds : HoldsPuts hashes db events state) (node : N) :
    state.hashes.of node = (hashes.of node).withKeys (state.hashes.ahash node) :=
  congrArg (Hashes.mk · (state.hashes.ahash node)) hholds.sha256

omit [DecidableEq N] in
/-- The record of a put is the same in every process at every node. -/
theorem HoldsPuts.kvRecord_eq (hholds : HoldsPuts hashes db events state) (origin node : N)
    (key val : Bytes) :
    kvRecord (hashes.of origin) key val = kvRecord (state.hashes.of node) key val := by
  rw [hholds.of_eq]
  rfl

/-- An event changes the store of one node, which goes on to hold only what was put. -/
theorem HoldsPuts.update {event : OutageEvent N} (hholds : HoldsPuts hashes db events state)
    {node : N} {store : TieredStore DB}
    (hstore : store.HoldsOnly (state.hashes.of node) (CdDB.contents (db node)).rows
      (IsPutRecord hashes (events ++ [event])) (FiledAt hashes (events ++ [event]) node))
    (other : N) :
    (Function.update state.cluster.store node store other).HoldsOnly (state.hashes.of other)
      (CdDB.contents (db other)).rows (IsPutRecord hashes (events ++ [event]))
        (FiledAt hashes (events ++ [event]) other) := by
  by_cases hother : other = node
  · subst hother
    rwa [Function.update_self]
  · rw [Function.update_of_ne hother]
    exact (hholds.store other).mono (fun _ => IsPutRecord.concat) fun _ _ => FiledAt.concat

variable [LawfulCdDB DB]

theorem HoldsPuts.step {before after : FailingCluster N DB} {event : OutageEvent N}
    (hholds : HoldsPuts hashes db events before)
    (hstep : FailingCluster.step before event = some after) :
    HoldsPuts hashes db (events ++ [event]) after := by
  have hold : ∀ node, (before.cluster.store node).HoldsOnly (before.hashes.of node)
      (CdDB.contents (db node)).rows (IsPutRecord hashes (events ++ [event]))
        (FiledAt hashes (events ++ [event]) node) :=
    fun node => (hholds.store node).mono (fun _ => IsPutRecord.concat) fun _ _ => FiledAt.concat
  have hsent : ∀ origin record, (origin, record) ∈ before.cluster.sent →
      IsPutRecord hashes (events ++ [event]) record :=
    fun origin record hmem => (hholds.sent origin record hmem).concat
  have hkeys : ∀ node, HadKeys hashes (events ++ [event]) node (before.hashes.ahash node) :=
    fun node => (hholds.ahash node).concat
  cases event with
  | live event =>
      obtain ⟨cluster, hcluster, rfl⟩ := FailingCluster.step_cases hstep
      cases event with
      | put node key val =>
          cases Cluster.step_cases hcluster
          have hput : IsPutRecord hashes (events ++ [.live (.put node key val)])
              (kvRecord (before.hashes.of node) key val) :=
            ⟨node, key, val, by simp, (hholds.kvRecord_eq node node key val).symm⟩
          refine ⟨hholds.update ((hold node).applySignedRecord hput),
            fun origin record hmem => ?_, hholds.sha256, hkeys⟩
          rcases List.mem_append.mp hmem with hearlier | hnew
          · exact hsent origin record hearlier
          · split at hnew
            · cases hnew
            · cases List.mem_singleton.mp hnew
              exact hput
      | deliver node message record =>
          obtain ⟨⟨origin, -, hmessage⟩, rfl⟩ := Cluster.step_cases hcluster
          have hput := hsent origin record (List.mem_of_getElem? hmessage)
          exact ⟨hholds.update ((hold node).applySignedRecord hput), hsent, hholds.sha256, hkeys⟩
      | writerTurn node =>
          cases Cluster.step_cases hcluster
          refine ⟨hholds.update ((hold node).backgroundWrite fun record hput => ?_), hsent,
            hholds.sha256, hkeys⟩
          exact ⟨hput, before.hashes.ahash node, hkeys node, by rw [← hholds.of_eq]⟩
  | restart node ahash =>
      cases FailingCluster.step_cases hstep
      refine ⟨fun other => ?_, hsent, hholds.sha256, fun other => ?_⟩
      · by_cases hother : other = node
        · subst hother
          dsimp only
          rw [Function.update_self, FailingCluster.rekey_of_self]
          exact (hold other).restart ahash
        · dsimp only
          rw [Function.update_of_ne hother, FailingCluster.rekey_of_ne _ hother]
          exact hold other
      · by_cases hother : other = node
        · subst hother
          exact Or.inr (by simp [FailingCluster.rekey])
        · simpa [FailingCluster.rekey, Function.update_of_ne hother] using hkeys other

theorem holdsPuts_run (hidle : ∀ node, CdDB.IsIdle (db node))
    (hrun : FailingCluster.run (FailingCluster.start hashes db) events = some state) :
    HoldsPuts hashes db events state := by
  refine runSteps_induction (motive := fun events (state : FailingCluster N DB) =>
    HoldsPuts hashes db events state) ?_ (fun _ _ _ _ _ ih hstep => ih.step hstep) hrun
  exact ⟨fun node => TieredStore.holdsOnly_new (hidle node),
    fun _ _ hmem => absurd hmem List.not_mem_nil, rfl, fun _ => Or.inl rfl⟩

/-- Keys under which `b` has the entity that `a` has under `otherKeys`. -/
def refiledKeys (hash : Hash32) : EntityId := sampleHashes.ahash hash + 31

/-- A node is killed when its put has been applied to the columns and sent. -/
def killedAfterPut : List (OutageEvent Bool) :=
  [.live (.put true keyA [1]), .live (.writerTurn true), .restart true refiledKeys,
    .live (.deliver false 0 (kvRecord sampleHashes keyA [1]))]

/-- Both nodes of the run on empty partitions. -/
def failingStart : FailingCluster Bool (ReferenceDB 8) :=
  FailingCluster.start sampleNodeHashes fun _ => ReferenceDB.empty

/-- When it is back, the node answers another key with what was put. -/
theorem exists_run_killedAfterPut :
    ∃ state, FailingCluster.run failingStart killedAfterPut = some state ∧
      state.hashes.ahash true = refiledKeys ∧
      L2Executor.get (state.hashes.of true) (state.cluster.store true) keyB = some [1] := by
  obtain ⟨state, hrun, hkeys, hhot, hrow⟩ : ∃ state,
      FailingCluster.run failingStart killedAfterPut = some state ∧
      state.hashes.ahash true = refiledKeys ∧
      (state.cluster.store true).hotIndex = newHotIndex ∧
      ((CdDB.contents (state.cluster.store true).db).rows
        (state.hashes.ahash true (state.hashes.sha256 keyB))).toSigned.map SignedRecord.value =
          some [1] := ⟨_, rfl, rfl, rfl, rfl⟩
  refine ⟨state, hrun, hkeys, ?_⟩
  have hempty : (state.cluster.store true).loadHot (state.hashes.of true)
      ((state.hashes.of true).sha256 keyB) = none := by
    rw [TieredStore.loadHot, hhot, get_newHotIndex]
    rfl
  exact (get_of_loadHot_eq_none hempty).trans hrow

omit [LawfulCdDB DB] in
/-- **A node that stays up sees no outage.** What it holds, and what has been sent, is
what a run without any outage leaves: the same events at the node, and the same plain
puts elsewhere. -/
theorem exists_run_without_outage
    (hrun : FailingCluster.run (FailingCluster.start hashes db) events = some state) {node : N}
    (hup : ∀ ahash, .restart node ahash ∉ events) :
    ∃ alone, Cluster.run hashes (Cluster.start db)
        ((events.filterMap OutageEvent.live?).filter (isSeenAt node)) = some alone ∧
      state.hashes.of node = hashes.of node ∧
      alone.store node = state.cluster.store node ∧ alone.sent = state.cluster.sent := by
  have hagrees : ∃ alone, Cluster.run hashes (Cluster.start db)
      ((events.filterMap OutageEvent.live?).filter (isSeenAt node)) = some alone ∧
        hashes.of node = state.hashes.of node ∧ AgreeAt node state.cluster alone := by
    revert hup
    refine runSteps_induction (motive := fun events (state : FailingCluster N DB) =>
      (∀ ahash, .restart node ahash ∉ events) → ∃ alone, Cluster.run hashes (Cluster.start db)
        ((events.filterMap OutageEvent.live?).filter (isSeenAt node)) = some alone ∧
          hashes.of node = state.hashes.of node ∧ AgreeAt node state.cluster alone)
      (fun _ => ⟨_, rfl, rfl, rfl, rfl⟩) ?_ hrun
    intro events before event after _ ih hstep hup
    obtain ⟨alone, halone, hsame, hagree⟩ :=
      ih fun ahash hmem => hup ahash (List.mem_append_left _ hmem)
    rw [filterMap_concat_eq_append, List.filter_append]
    cases event with
    | live event =>
        obtain ⟨cluster, hcluster, rfl⟩ := FailingCluster.step_cases hstep
        cases hseen : isSeenAt node event with
        | true =>
            obtain ⟨aloneAfter, hnext, hafter⟩ := hagree.of_seen hsame hseen hcluster
            refine ⟨aloneAfter, runSteps_trans halone ?_, hsame, hafter⟩
            rw [OutageEvent.live?, Option.toList_some, List.filter_cons_of_pos hseen,
              List.filter_nil, runSteps_cons, hnext]
            rfl
        | false =>
            refine ⟨alone, ?_, hsame, hagree.of_not_seen hseen hcluster⟩
            rw [OutageEvent.live?, Option.toList_some,
              List.filter_cons_of_neg (Bool.eq_false_iff.mp hseen)]
            exact runSteps_trans halone rfl
    | restart other ahash =>
        cases FailingCluster.step_cases hstep
        have hother : node ≠ other := by
          rintro rfl
          exact hup ahash (by simp)
        refine ⟨alone, runSteps_trans halone rfl, ?_, hagree.elsewhere (Ne.symm hother) _⟩
        exact hsame.trans (FailingCluster.rekey_of_ne _ hother _).symm
  obtain ⟨alone, halone, hsame, hstore, hsent⟩ := hagrees
  exact ⟨alone, halone, hsame.symm, hstore, hsent⟩

/-- The node that received the put cannot tell that its sender was killed. -/
theorem exists_run_without_outage_killedAfterPut :
    ∃ state alone, FailingCluster.run failingStart killedAfterPut = some state ∧
      Cluster.run sampleNodeHashes (Cluster.start fun _ => (ReferenceDB.empty : ReferenceDB 8))
        [.put true keyA [1], .deliver false 0 (kvRecord sampleHashes keyA [1])] = some alone ∧
      alone.store false = state.cluster.store false := by
  obtain ⟨state, hrun, -⟩ := exists_run_killedAfterPut
  have hup : ∀ ahash, .restart false ahash ∉ killedAfterPut := by simp [killedAfterPut]
  obtain ⟨alone, halone, -, hstore, -⟩ := exists_run_without_outage hrun hup
  exact ⟨state, alone, hrun, halone, hstore⟩

end ServerGo.Analysis
