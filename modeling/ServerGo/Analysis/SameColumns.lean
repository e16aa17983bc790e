/-
# The columns of the two stores

Both stores send the same records under the same entities, and no query shows the
columns of the pure cache. They are not those of the tiered store: where that writes
the epoch and the type of a record, the pure cache writes the length of its payload
and zero. So the two hold the same just if the last record of every entity is one of
which this is true.
-/

import ServerGo.Storage.PureCacheStore
import ServerGo.Storage.TieredRun

namespace ServerGo.Analysis

open ServerGo.Math ServerGo.Storage

/-- The row of a record, its epoch narrowed to 32 bits. -/
def SignedRecord.row (record : SignedRecord) : Row where
  payload := some record.payload
  epoch := some record.epochId.toUInt32
  type := some record.recordType

/-- The row an entity is to have: that of the last record filed under it. -/
def lastRow (hashes : Hashes) (records : List SignedRecord) (entityId : EntityId) : Row :=
  match TieredStore.lastOfEntity hashes entityId records with
  | some record => SignedRecord.row record
  | none => Row.empty

/-- The two stores hold the same row for every entity, that of its last record. -/
def SameColumns {DB DB' : Type} [CdDB DB] [CdDB DB'] (hashes : Hashes)
    (pure : PureCacheStore DB) (tiered : TieredStore DB') (records : List SignedRecord) : Prop :=
  ∀ entityId, (CdDB.contents pure.db).rows entityId = (CdDB.contents tiered.db).rows entityId ∧
    (CdDB.contents tiered.db).rows entityId = lastRow hashes records entityId

/-- The last record of every entity is of type 0 and of an epoch that agrees with the
length of its payload in the lower 32 bits. -/
def EpochsAreLengths (hashes : Hashes) (records : List SignedRecord) : Prop :=
  ∀ entityId record, TieredStore.lastOfEntity hashes entityId records = some record →
    record.recordType = 0 ∧ record.epochId.toNat % 2 ^ 32 = record.payload.length % 2 ^ 32

/-- What the pure cache sends of a record is the record's row just if the type is 0
and the epoch, in 32 bits, the length. -/
theorem row_toPureInsertFast_iff (hashes : Hashes) (record : SignedRecord) :
    (record.toPureInsertFast hashes).row = SignedRecord.row record ↔
      record.recordType = 0 ∧ record.epochId.toNat % 2 ^ 32 = record.payload.length % 2 ^ 32 := by
  rw [Row.ext_iff]
  simp only [InsertFast.row, SignedRecord.toPureInsertFast, SignedRecord.row, Option.some_inj,
    true_and, ← UInt32.toNat_inj, UInt32.toNat_ofNat', UInt64.toNat_toUInt32]
  rw [and_comm, eq_comm, UInt32.toNat_zero]
  exact and_congr_right' eq_comm

variable {hashes : Hashes} {DB DB' : Type} [CdDB DB] [LawfulCdDB DB] [CdDB DB'] [LawfulCdDB DB']

/-- **When both stores write the same columns.** Fed the same records from empty
partitions, with turns of either writer anywhere, all commands accepted and applied,
the two hold the same row for every entity, that of its last record, if and only if
every last record is of type 0 and has the length of its payload for its epoch, in
the lower 32 bits. -/
theorem sameColumns_iff {db : DB} {db' : DB'} (hpureFresh : CdDB.IsFresh db)
    (htieredFresh : CdDB.IsFresh db') {pureCalls tieredCalls : List Call}
    {records : List SignedRecord} (hpureFed : pureCalls.filterMap (Call.record? hashes) = records)
    (htieredFed : tieredCalls.filterMap (Call.record? hashes) = records)
    (hpureAccepted : (PureCacheStore.writeThrough hashes).accepted (PureCacheStore.new db)
      pureCalls = records)
    (htieredAccepted : TieredStore.accepted hashes (TieredStore.new db') tieredCalls = records)
    (hpureDrained : CdDB.IsIdle (Call.run hashes (PureCacheStore.new db) pureCalls).db)
    (htieredDrained : CdDB.IsIdle (Call.run hashes (TieredStore.new db') tieredCalls).db) :
    SameColumns hashes (Call.run hashes (PureCacheStore.new db) pureCalls)
        (Call.run hashes (TieredStore.new db') tieredCalls) records ↔
      EpochsAreLengths hashes records := by
  have hpureStart : (PureCacheStore.writeThrough hashes).partition (PureCacheStore.new db) = _ :=
    hpureFresh
  have hpure := (PureCacheStore.writeThrough hashes).rows_of_drained hpureStart
    (hpureAccepted.trans hpureFed.symm) hpureDrained
  have htiered := TieredStore.rows_of_drained htieredFresh
    (htieredAccepted.trans htieredFed.symm) htieredDrained
  rw [hpureFed] at hpure
  rw [htieredFed] at htiered
  refine forall_congr' fun entityId => ?_
  have hpureRow : (CdDB.contents (Call.run hashes (PureCacheStore.new db) pureCalls).db).rows
      entityId = ((TieredStore.lastOfEntity hashes entityId records).map fun record =>
        (record.toPureInsertFast hashes).row).getD Row.empty := hpure entityId
  rw [hpureRow, htiered, lastRow]
  cases TieredStore.lastOfEntity hashes entityId records with
  | none => simp
  | some record =>
      have htieredRow : (record.toInsertFast hashes).row = SignedRecord.row record := rfl
      simp only [Option.map_some, Option.getD_some, htieredRow, row_toPureInsertFast_iff,
        and_true, Option.some_inj, forall_eq']

/-- A record of which the pure cache writes what it is, and one of which it does not. -/
def lengthRecord : SignedRecord := ⟨1, keyA, zeroSignature, 0⟩

def epochRecord : SignedRecord := ⟨42, keyA, zeroSignature, 10⟩

/-- The one is overwritten by the other before it is written, -/
def overwrittenFirst : List Call :=
  [.apply epochRecord, .apply lengthRecord, .writerTurn, .writerTurn]

/-- or after. -/
def writtenFirst : List Call :=
  [.apply epochRecord, .writerTurn, .apply lengthRecord, .writerTurn]

/-- Of what has been overwritten nothing is left in either. -/
theorem sameColumns_iff_overwritten :
    SameColumns sampleHashes
      (Call.run sampleHashes (PureCacheStore.new (ReferenceDB.empty : ReferenceDB 8))
        overwrittenFirst)
      (Call.run sampleHashes (TieredStore.new (ReferenceDB.empty : ReferenceDB 8)) writtenFirst)
      [epochRecord, lengthRecord] := by
  have hlengths : EpochsAreLengths sampleHashes [epochRecord, lengthRecord] := by
    intro entityId record hlast
    rw [TieredStore.lastOfEntity, ← List.singleton_append, latest_concat] at hlast
    obtain rfl : lengthRecord = record := by
      by_cases hentity : sampleHashes.entityId lengthRecord = entityId
      · rw [if_pos hentity, Option.some_or] at hlast
        exact Option.some.inj hlast
      · rw [if_neg hentity, Option.none_or] at hlast
        obtain ⟨found, hmem, hfound⟩ := exists_mem_of_latest hlast
        cases List.mem_singleton.mp hmem
        exact absurd (Option.ite_none_right_eq_some.mp hfound).1 hentity
    decide
  exact (sameColumns_iff ReferenceDB.isFresh_empty ReferenceDB.isFresh_empty (by rfl) (by rfl)
    (by rfl) (by rfl) (by rfl) (by rfl)).mpr hlengths

/-- A record that is applied and written. -/
def appliedOnce (record : SignedRecord) : List Call := [.apply record, .writerTurn]

/-- Of a record of epoch 42 and type 10 with one byte of payload, the pure cache
writes epoch 1 and type 0. -/
theorem not_sameColumns_epochRecord :
    (PureCacheStore.writeThrough sampleHashes).accepted
        (PureCacheStore.new (ReferenceDB.empty : ReferenceDB 8)) (appliedOnce epochRecord) =
      [epochRecord] ∧
    TieredStore.accepted sampleHashes (TieredStore.new (ReferenceDB.empty : ReferenceDB 8))
        (appliedOnce epochRecord) =
      [epochRecord] ∧
    CdDB.IsIdle (Call.run sampleHashes (PureCacheStore.new (ReferenceDB.empty : ReferenceDB 8))
      (appliedOnce epochRecord)).db ∧
    CdDB.IsIdle (Call.run sampleHashes (TieredStore.new (ReferenceDB.empty : ReferenceDB 8))
      (appliedOnce epochRecord)).db ∧
    ¬SameColumns sampleHashes
      (Call.run sampleHashes (PureCacheStore.new (ReferenceDB.empty : ReferenceDB 8))
        (appliedOnce epochRecord))
      (Call.run sampleHashes (TieredStore.new (ReferenceDB.empty : ReferenceDB 8))
        (appliedOnce epochRecord))
      [epochRecord] := by
  refine ⟨rfl, rfl, rfl, rfl, fun hsame => ?_⟩
  have hrows := (hsame (sampleHashes.ahash (sampleHashes.sha256 keyA))).1
  revert hrows
  decide

end ServerGo.Analysis
