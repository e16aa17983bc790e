/-
# The pure cache store

`PureCacheStore` is the memory-only store: it writes its partition as the tiered
store does, though with other values in the two integer columns, and never reads
it back. A query is one slot load, so the store is the slot table on any
partition, whatever its queue accepts.
-/

import ServerGo.Storage.WriteThrough

namespace ServerGo.Storage

/-- `PureCacheStore`: a partition that is only written, and the hot index. -/
structure PureCacheStore (DB : Type) where
  db : DB
  hotIndex : GlobalHotIndex hotCapacity.toNat

/-- The command the pure cache sends: the payload length stands in the epoch
column and the type column is zero. -/
def SignedRecord.toPureInsertFast (hashes : Hashes) (record : SignedRecord) : InsertFast where
  entityId := hashes.entityId record
  epoch := UInt32.ofNat record.payload.length
  recordType := 0
  payload := record.payload

namespace PureCacheStore

variable {DB : Type}

/-- `PureCacheStore::new` over its in-memory partition. -/
def new (db : DB) : PureCacheStore DB where
  db := db
  hotIndex := newHotIndex

variable (hashes : Hashes)

/-- `PureCacheStore::get_record`. -/
def getRecord (store : PureCacheStore DB) (hash : Hash32) : Option SignedRecord :=
  match store.hotIndex.get (hashes.ahash hash) with
  | some cached => some cached.toSigned
  | none => none

variable [CdDB DB]

/-- `PureCacheStore::apply_signed_record`: the slot store, then a `try_send`
whose result is dropped. -/
def applySignedRecord (store : PureCacheStore DB) (record : SignedRecord) : PureCacheStore DB :=
  let stored := store.hotIndex.set (hashes.entityId record) record.toCached
  match CdDB.trySend store.db (record.toPureInsertFast hashes) with
  | some db => { db := db, hotIndex := stored }
  | none => { store with hotIndex := stored }

/-- One turn of the background writer of the in-memory partition. -/
def backgroundWrite (store : PureCacheStore DB) : PureCacheStore DB :=
  { store with db := CdDB.writeNext store.db }

instance : StateStore (PureCacheStore DB) where
  getRecord hashes := getRecord hashes
  applySignedRecord hashes := applySignedRecord hashes
  backgroundWrite := backgroundWrite

variable {hashes}

theorem applySignedRecord_hotIndex (store : PureCacheStore DB) (record : SignedRecord) :
    (store.applySignedRecord hashes record).hotIndex =
      store.hotIndex.set (hashes.entityId record) record.toCached := by
  rw [applySignedRecord]
  split <;> rfl

/-- The pure cache is the slot table, on any partition. -/
def slotRefinement (hashes : Hashes) : SlotRefinement hashes (PureCacheStore DB) where
  Rel store table := ∀ entityId, store.hotIndex.get entityId =
    (table (hotSlot entityId)).map SignedRecord.toCached
  getRecord_eq := by
    intro store table hhot hash
    show store.getRecord hashes hash = table (hotSlot (hashes.ahash hash))
    rw [getRecord, hhot]
    cases table (hotSlot (hashes.ahash hash)) <;> rfl
  rel_apply := by
    intro store table hhot record entityId
    show (store.applySignedRecord hashes record).hotIndex.get entityId = _
    rw [applySignedRecord_hotIndex, SlotTable.get_set_apply hhot]
  rel_backgroundWrite := fun hhot => hhot

theorem slotRefinement_new (db : DB) :
    (slotRefinement hashes).Rel (new db) SlotTable.empty :=
  fun entityId => get_newHotIndex entityId

/-- Whether the command of a record would be accepted now. -/
def accepts (hashes : Hashes) (store : PureCacheStore DB) (record : SignedRecord) : Bool :=
  (CdDB.trySend store.db (record.toPureInsertFast hashes)).isSome

variable [LawfulCdDB DB]

theorem applySignedRecord_contents (store : PureCacheStore DB) (record : SignedRecord) :
    CdDB.contents (store.applySignedRecord hashes record).db =
      if store.accepts hashes record then
        (CdDB.contents store.db).enqueue (record.toPureInsertFast hashes)
      else CdDB.contents store.db := by
  rw [applySignedRecord, accepts]
  split
  next next hsend => simp [hsend, LawfulCdDB.contents_trySend hsend]
  next hsend => simp [hsend]

/-- What the pure cache does to its partition. -/
def writeThrough (hashes : Hashes) : WriteThrough hashes (PureCacheStore DB) where
  partition store := CdDB.contents store.db
  command := SignedRecord.toPureInsertFast hashes
  accepts := accepts hashes
  command_entityId _ := rfl
  partition_apply := applySignedRecord_contents
  partition_backgroundWrite store := LawfulCdDB.contents_writeNext store.db

end PureCacheStore

end ServerGo.Storage
