/-
# The tiered store

`TieredStore` keeps the record last applied in each hot slot and sends every
record on to a cdDB partition. A write is two steps that nothing ties together:
the slot store, and a `try_send` whose error is dropped. A read is at most two:
the slot load, and the columns when the slot was empty. The steps are separate
definitions because concurrent callers interleave them.
-/

import ServerGo.Storage.Database
import ServerGo.Storage.HotIndex
import ServerGo.Storage.StateStore

namespace ServerGo.Storage

open ServerGo.Math

/-- `TieredStore`: the two ends of a partition and the hot index before it. -/
structure TieredStore (DB : Type) where
  db : DB
  hotIndex : GlobalHotIndex hotCapacity.toNat

/-- The command `apply_signed_record` sends; the epoch is cast to 32 bits. -/
def SignedRecord.toInsertFast (hashes : Hashes) (record : SignedRecord) : InsertFast where
  entityId := hashes.entityId record
  epoch := record.epochId.toUInt32
  recordType := record.recordType
  payload := record.payload

/-- The record the cold path of `get_record` builds from a row. Absent integers
read as zero and the signature, which no column holds, is all zeros. -/
def Row.toSigned (row : Row) : Option SignedRecord :=
  match row.payload with
  | some payload =>
      some {
        epochId := (row.epoch.getD 0).toUInt64
        payload := payload
        judgeSignature := zeroSignature
        recordType := row.type.getD 0 }
  | none => none

namespace TieredStore

variable {DB : Type}

/-- `TieredStore::new` over an open partition: the hot index starts empty. -/
def new (db : DB) : TieredStore DB where
  db := db
  hotIndex := newHotIndex

variable (hashes : Hashes)

/-- First step of a read: load the hot slot. -/
def loadHot (store : TieredStore DB) (hash : Hash32) : Option SignedRecord :=
  (store.hotIndex.get (hashes.ahash hash)).map CachedRecord.toSigned

/-- First step of a write: store the hot slot. -/
def storeHot (store : TieredStore DB) (record : SignedRecord) : TieredStore DB :=
  { store with hotIndex := store.hotIndex.set (hashes.entityId record) record.toCached }

variable [CdDB DB]

/-- Second step of a read, when the slot was empty: the query session. -/
def readColumns (store : TieredStore DB) (hash : Hash32) : Option SignedRecord :=
  ((CdDB.contents store.db).rows (hashes.ahash hash)).toSigned

/-- `TieredStore::get_record`. -/
def getRecord (store : TieredStore DB) (hash : Hash32) : Option SignedRecord :=
  match store.loadHot hashes hash with
  | some record => some record
  | none => store.readColumns hashes hash

/-- Second step of a write: `let _ = try_send(..)`, whatever comes of it. -/
def sendInsert (store : TieredStore DB) (record : SignedRecord) : TieredStore DB :=
  match CdDB.trySend store.db (record.toInsertFast hashes) with
  | some db => { store with db := db }
  | none => store

/-- `TieredStore::apply_signed_record`. -/
def applySignedRecord (store : TieredStore DB) (record : SignedRecord) : TieredStore DB :=
  (store.storeHot hashes record).sendInsert hashes record

/-- Whether the command of a record would be accepted now. -/
def accepts (store : TieredStore DB) (record : SignedRecord) : Bool :=
  (CdDB.trySend store.db (record.toInsertFast hashes)).isSome

/-- One turn of cdDB's background writer. -/
def backgroundWrite (store : TieredStore DB) : TieredStore DB :=
  { store with db := CdDB.writeNext store.db }

/-- The store a new process opens on the same data. That process reads it with `AHasher`
keys of its own. -/
def restart (store : TieredStore DB) : TieredStore DB :=
  new (CdDB.reopen store.db)

instance : StateStore (TieredStore DB) where
  getRecord hashes := getRecord hashes
  applySignedRecord hashes := applySignedRecord hashes
  backgroundWrite := backgroundWrite

/-! ## What each step changes -/

variable {hashes}

section

omit [CdDB DB]

@[simp]
theorem new_hotIndex_get (db : DB) (entityId : EntityId) :
    (new db).hotIndex.get entityId = none := get_newHotIndex entityId

theorem storeHot_hotIndex_get (store : TieredStore DB) (record : SignedRecord)
    (entityId : EntityId) :
    (store.storeHot hashes record).hotIndex.get entityId =
      if hotSlot (hashes.entityId record) = hotSlot entityId then some record.toCached
      else store.hotIndex.get entityId :=
  get_set_hotSlot store.hotIndex _ entityId record.toCached

end

@[simp]
theorem sendInsert_hotIndex (store : TieredStore DB) (record : SignedRecord) :
    (store.sendInsert hashes record).hotIndex = store.hotIndex := by
  rw [sendInsert]
  split <;> rfl

@[simp]
theorem backgroundWrite_hotIndex (store : TieredStore DB) :
    store.backgroundWrite.hotIndex = store.hotIndex := rfl

theorem applySignedRecord_hotIndex_get (store : TieredStore DB) (record : SignedRecord)
    (entityId : EntityId) :
    (store.applySignedRecord hashes record).hotIndex.get entityId =
      if hotSlot (hashes.entityId record) = hotSlot entityId then some record.toCached
      else store.hotIndex.get entityId := by
  rw [applySignedRecord, sendInsert_hotIndex, storeHot_hotIndex_get]

variable [LawfulCdDB DB]

/-- A send either changes nothing or puts the record's command in the queue. -/
theorem sendInsert_contents (store : TieredStore DB) (record : SignedRecord) :
    CdDB.contents (store.sendInsert hashes record).db =
      if store.accepts hashes record then
        (CdDB.contents store.db).enqueue (record.toInsertFast hashes)
      else CdDB.contents store.db := by
  rw [sendInsert, accepts]
  split
  next next hsend => simp [hsend, LawfulCdDB.contents_trySend hsend]
  next hsend => simp [hsend]

theorem applySignedRecord_contents (store : TieredStore DB) (record : SignedRecord) :
    CdDB.contents (store.applySignedRecord hashes record).db =
      if store.accepts hashes record then
        (CdDB.contents store.db).enqueue (record.toInsertFast hashes)
      else CdDB.contents store.db :=
  sendInsert_contents (store.storeHot hashes record) record

@[simp]
theorem backgroundWrite_contents (store : TieredStore DB) :
    CdDB.contents store.backgroundWrite.db =
      (CdDB.contents store.db).writeOne InsertFast.entityId InsertFast.row :=
  LawfulCdDB.contents_writeNext store.db

/-! ## Behind an empty slot the columns are as recovered

An entity reaches the queue only after its hot slot was stored, and a slot is
never emptied. So an empty slot means that the process has not written the
entity, and the columns hold for it what they held when the store was opened.
-/

/-- Every entity in the queue has an occupied hot slot, and where a slot is empty
the row of the entity is the recovered one. -/
structure Covered (recovered : EntityId → Row) (store : TieredStore DB) : Prop where
  pending : ∀ command ∈ (CdDB.contents store.db).pending,
    store.hotIndex.get command.entityId ≠ none
  rows : ∀ entityId, store.hotIndex.get entityId = none →
    (CdDB.contents store.db).rows entityId = recovered entityId

omit [LawfulCdDB DB] in
theorem covered_new {db : DB} (hidle : CdDB.IsIdle db) :
    (new db).Covered (CdDB.contents db).rows where
  pending := by
    intro command hmem
    have hpending : command ∈ (CdDB.contents db).pending := hmem
    rw [hidle] at hpending
    cases hpending
  rows _ _ := rfl

variable {recovered : EntityId → Row}

/-- A record is stored in its slot before its command is sent, and no slot is
emptied. -/
theorem Covered.applySignedRecord {store : TieredStore DB} (hcovered : store.Covered recovered)
    (record : SignedRecord) : (store.applySignedRecord hashes record).Covered recovered := by
  have hkept : ∀ entityId, (store.applySignedRecord hashes record).hotIndex.get entityId = none →
      hotSlot (hashes.entityId record) ≠ hotSlot entityId ∧
        store.hotIndex.get entityId = none := by
    intro entityId hnone
    rw [applySignedRecord_hotIndex_get] at hnone
    split at hnone
    · cases hnone
    · exact ⟨‹_›, hnone⟩
  constructor
  · intro command hmem hnone
    obtain ⟨hslot, hempty⟩ := hkept _ hnone
    rw [applySignedRecord_contents] at hmem
    split at hmem
    · rcases List.mem_append.mp hmem with hold | hnew
      · exact hcovered.pending command hold hempty
      · exact hslot (congrArg (fun sent => hotSlot sent.entityId) (List.mem_singleton.mp hnew)).symm
    · exact hcovered.pending command hmem hempty
  · intro entityId hnone
    rw [applySignedRecord_contents, ← hcovered.rows entityId (hkept entityId hnone).2]
    split <;> rfl

/-- A row the writer fills in was waiting in the queue. -/
theorem Covered.backgroundWrite {store : TieredStore DB} (hcovered : store.Covered recovered) :
    store.backgroundWrite.Covered recovered := by
  constructor
  · intro command hmem
    rw [backgroundWrite_contents] at hmem
    exact hcovered.pending command (WriteBehind.writeOne_pending_subset _ hmem)
  · intro entityId hnone
    rw [backgroundWrite_contents, ← hcovered.rows entityId hnone]
    rcases WriteBehind.writeOne_rows InsertFast.entityId InsertFast.row
      (CdDB.contents store.db) entityId with hsame | ⟨command, hmem, hkey, -⟩
    · exact hsame
    · exact absurd (hkey ▸ hnone) (hcovered.pending command hmem)

omit [LawfulCdDB DB] in
/-- A covered store answers from its hot index, and from what was recovered
where the index has nothing. -/
theorem Covered.getRecord {store : TieredStore DB} (hcovered : store.Covered recovered)
    (hash : Hash32) :
    store.getRecord hashes hash =
      (store.loadHot hashes hash).or (recovered (hashes.ahash hash)).toSigned := by
  rw [TieredStore.getRecord]
  cases hhot : store.loadHot hashes hash with
  | some record => rfl
  | none =>
      rw [loadHot, Option.map_eq_none_iff] at hhot
      rw [Option.none_or, readColumns, hcovered.rows _ hhot]

/-- On a fresh partition the tiered store is the slot table: the queue and the
columns behind it cannot be observed. -/
def slotRefinement (hashes : Hashes) : SlotRefinement hashes (TieredStore DB) where
  Rel store table := store.Covered (fun _ => Row.empty) ∧
    ∀ entityId, store.hotIndex.get entityId =
      (table (hotSlot entityId)).map SignedRecord.toCached
  getRecord_eq := by
    rintro store table ⟨hcovered, hhot⟩ hash
    have hload : store.loadHot hashes hash = table.read hashes hash := by
      rw [loadHot, hhot, Option.map_map]
      exact Option.map_id_apply
    exact (hcovered.getRecord hash).trans (by rw [hload]; exact Option.or_none)
  rel_apply := by
    rintro store table ⟨hcovered, hhot⟩ record
    refine ⟨hcovered.applySignedRecord record, fun entityId => ?_⟩
    show (store.applySignedRecord hashes record).hotIndex.get entityId = _
    rw [applySignedRecord, sendInsert_hotIndex]
    exact SlotTable.get_set_apply hhot record entityId
  rel_backgroundWrite := by
    rintro store table ⟨hcovered, hhot⟩
    exact ⟨hcovered.backgroundWrite, hhot⟩

theorem slotRefinement_new {db : DB} (hfresh : CdDB.IsFresh db) :
    (slotRefinement hashes).Rel (new db) SlotTable.empty := by
  refine ⟨?_, fun entityId => get_newHotIndex entityId⟩
  have hcovered := covered_new hfresh.isIdle
  rwa [hfresh] at hcovered

end TieredStore

end ServerGo.Storage
