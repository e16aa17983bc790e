/-
# Runs of a tiered store

After any run of calls from an opened partition, the hot index holds the last
record of each slot and the columns are on their way to the last record of each
entity among those whose command was accepted. A query reads the first and falls
back to what was recovered on opening; a restart reads the second.
-/

import ServerGo.Storage.TieredStore
import ServerGo.Storage.WriteThrough

namespace ServerGo.Storage

open ServerGo.Math

namespace TieredStore

variable {hashes : Hashes} {DB : Type} [CdDB DB]

/-- The hot index after a run holds the last record of each slot, and what was
there before in the slots the run left alone. -/
theorem hotIndex_run_from (start : TieredStore DB) (calls : List Call) (entityId : EntityId) :
    (Call.run hashes start calls).hotIndex.get entityId =
      ((lastInSlot hashes (hotSlot entityId) calls).map SignedRecord.toCached).or
        (start.hotIndex.get entityId) := by
  induction calls using List.reverseRecOn with
  | nil => rfl
  | append_singleton calls call ih =>
      rw [Call.run_concat, lastInSlot, latest_concat, ← lastInSlot]
      have hstep : ∀ record,
          ((Call.run hashes start calls).applySignedRecord hashes record).hotIndex.get entityId =
            (((if hotSlot (hashes.entityId record) = hotSlot entityId then some record
              else none).or (lastInSlot hashes (hotSlot entityId) calls)).map
                SignedRecord.toCached).or (start.hotIndex.get entityId) := by
        intro record
        rw [applySignedRecord_hotIndex_get, ih]
        split <;> rfl
      cases call with
      | put key val => exact hstep _
      | get key => exact ih
      | apply record => exact hstep record
      | writerTurn => exact ih

theorem hotIndex_run (db : DB) (calls : List Call) (entityId : EntityId) :
    (Call.run hashes (new db) calls).hotIndex.get entityId =
      (lastInSlot hashes (hotSlot entityId) calls).map SignedRecord.toCached := by
  rw [hotIndex_run_from, new_hotIndex_get, Option.or_none]

/-- A client reads the last record of the slot of its key, whatever the store was
like before the run. -/
theorem get_run_of_lastInSlot {start : TieredStore DB} {calls : List Call} {key : Bytes}
    {record : SignedRecord} (hlast : lastInSlot hashes (keySlot hashes key) calls = some record) :
    L2Executor.get hashes (Call.run hashes start calls) key = some record.value := by
  have hload : (Call.run hashes start calls).loadHot hashes (hashes.sha256 key) = some record := by
    rw [loadHot, hotIndex_run_from, hotSlot_ahash_sha256, hlast]
    rfl
  have hread : (Call.run hashes start calls).getRecord hashes (hashes.sha256 key) =
      some record := by
    rw [getRecord, hload]
  rw [L2Executor.get_eq_map]
  exact congrArg (Option.map SignedRecord.value) hread

/-- A client reads the value that was put just before. -/
theorem get_run_concat_put (start : TieredStore DB) (calls : List Call) (key val : Bytes) :
    L2Executor.get hashes (Call.run hashes start (calls ++ [.put key val])) key = some val := by
  have hlast : lastInSlot hashes (keySlot hashes key) (calls ++ [.put key val]) =
      some (kvRecord hashes key val) := by
    simp [lastInSlot, Call.record?]
  rw [get_run_of_lastInSlot hlast, value_kvRecord]

/-! ## The columns -/

/-- The records of a run whose commands were accepted, in order. -/
abbrev accepted (hashes : Hashes) (store : TieredStore DB) (calls : List Call) :
    List SignedRecord :=
  Call.accepted hashes (accepts hashes) store calls

/-- The last record of an entity in a list. -/
def lastOfEntity (hashes : Hashes) (entityId : EntityId) (records : List SignedRecord) :
    Option SignedRecord :=
  latest (fun record => if hashes.entityId record = entityId then some record else none) records

variable [LawfulCdDB DB]

theorem covered_run {db : DB} (hidle : CdDB.IsIdle db) (calls : List Call) :
    (Call.run hashes (new db) calls).Covered (CdDB.contents db).rows := by
  induction calls using List.reverseRecOn with
  | nil => exact covered_new hidle
  | append_singleton calls call ih =>
      rw [Call.run_concat]
      cases call with
      | put key val => exact ih.applySignedRecord _
      | get key => exact ih
      | apply record => exact ih.applySignedRecord record
      | writerTurn => exact ih.backgroundWrite

/-- A query after a run returns the last record of its slot, or what the columns
held on opening when no record reached the slot. -/
theorem getRecord_run {db : DB} (hidle : CdDB.IsIdle db) (calls : List Call) (hash : Hash32) :
    (Call.run hashes (new db) calls).getRecord hashes hash =
      (lastInSlot hashes (hotSlot (hashes.ahash hash)) calls).or
        ((CdDB.contents db).rows (hashes.ahash hash)).toSigned := by
  rw [(covered_run hidle calls).getRecord, loadHot, hotIndex_run, Option.map_map]
  exact congrArg (Option.or · _) Option.map_id_apply

/-- A client reads the value of that record. -/
theorem get_run {db : DB} (hidle : CdDB.IsIdle db) (calls : List Call) (key : Bytes) :
    L2Executor.get hashes (Call.run hashes (new db) calls) key =
      ((lastInSlot hashes (keySlot hashes key) calls).or
        ((CdDB.contents db).rows (hashes.ahash (hashes.sha256 key))).toSigned).map
          SignedRecord.value := by
  rw [L2Executor.get_eq_map]
  exact congrArg (Option.map SignedRecord.value) (getRecord_run hidle calls _)

/-- What the columns will hold once the queue is empty. -/
def settledRows (store : TieredStore DB) : EntityId → Row :=
  (CdDB.contents store.db).settled InsertFast.entityId InsertFast.row

omit [LawfulCdDB DB] in
theorem settledRows_of_isIdle {store : TieredStore DB} (hidle : CdDB.IsIdle store.db) :
    store.settledRows = (CdDB.contents store.db).rows :=
  WriteBehind.settled_of_pending_eq_nil hidle

/-- A record whose command is accepted will settle as its row. -/
theorem settledRows_sendInsert (store : TieredStore DB) (record : SignedRecord) :
    (store.sendInsert hashes record).settledRows =
      if store.accepts hashes record then
        Function.update store.settledRows (hashes.entityId record)
          (record.toInsertFast hashes).row
      else store.settledRows := by
  rw [settledRows, sendInsert_contents]
  split
  · exact WriteBehind.settled_enqueue _ _
  · rfl

theorem settledRows_applySignedRecord (store : TieredStore DB) (record : SignedRecord) :
    (store.applySignedRecord hashes record).settledRows =
      if store.accepts hashes record then
        Function.update store.settledRows (hashes.entityId record)
          (record.toInsertFast hashes).row
      else store.settledRows :=
  settledRows_sendInsert (store.storeHot hashes record) record

/-- One more command sent: what an entity settles on stays the last accepted
record of it. -/
theorem settledRows_sendInsert_of_eq (store : TieredStore DB) {records : List SignedRecord}
    {entityId : EntityId} {recovered : Row}
    (hsettled : store.settledRows entityId =
      ((lastOfEntity hashes entityId records).map fun record =>
        (record.toInsertFast hashes).row).getD recovered) (record : SignedRecord) :
    (store.sendInsert hashes record).settledRows entityId =
      ((lastOfEntity hashes entityId
        (if store.accepts hashes record then records ++ [record] else records)).map fun record =>
          (record.toInsertFast hashes).row).getD recovered := by
  rw [settledRows_sendInsert]
  split
  · rw [lastOfEntity, latest_concat, ← lastOfEntity, Function.update_apply, hsettled]
    by_cases hentity : hashes.entityId record = entityId
    · simp [hentity]
    · rw [if_neg (Ne.symm hentity), if_neg hentity, Option.none_or]
  · exact hsettled

@[simp]
theorem settledRows_backgroundWrite (store : TieredStore DB) :
    store.backgroundWrite.settledRows = store.settledRows := by
  rw [settledRows, backgroundWrite_contents, WriteBehind.settled_writeOne]
  rfl

/-- What the tiered store does to its partition. -/
def writeThrough (hashes : Hashes) : WriteThrough hashes (TieredStore DB) where
  partition store := CdDB.contents store.db
  command := SignedRecord.toInsertFast hashes
  accepts := accepts hashes
  command_entityId _ := rfl
  partition_apply := applySignedRecord_contents
  partition_backgroundWrite := backgroundWrite_contents

/-- Each entity settles on the last record of it whose command was accepted, and
on the row it started from when there is none. -/
theorem settledRows_run (start : TieredStore DB) (calls : List Call) (entityId : EntityId) :
    (Call.run hashes start calls).settledRows entityId =
      ((lastOfEntity hashes entityId (accepted hashes start calls)).map fun record =>
        (record.toInsertFast hashes).row).getD (start.settledRows entityId) :=
  (writeThrough hashes).settled_run start calls entityId

/-- The row of an entity after a run from a fresh partition whose commands were all
accepted and applied: that of the last record filed under it. -/
theorem rows_of_drained {db : DB} (hfresh : CdDB.IsFresh db) {calls : List Call}
    (haccepted : accepted hashes (new db) calls = calls.filterMap (Call.record? hashes))
    (hdrained : CdDB.IsIdle (Call.run hashes (new db) calls).db) (entityId : EntityId) :
    (CdDB.contents (Call.run hashes (new db) calls).db).rows entityId =
      ((lastOfEntity hashes entityId (calls.filterMap (Call.record? hashes))).map
        fun record => (record.toInsertFast hashes).row).getD Row.empty := by
  have hstart : (writeThrough hashes).partition (new db) = _ := hfresh
  exact (writeThrough hashes).rows_of_drained hstart haccepted hdrained entityId

end TieredStore

end ServerGo.Storage
