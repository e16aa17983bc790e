/-
# Where what a store holds comes from

Whatever kind of records is applied to a store, its slots, its queue and its columns
hold records of that kind and what was recovered, and nothing else. This stays so
when the process is killed and the partition opened again, by a process with other
`AHasher` keys: then the rows are still where the earlier processes have filed them.
-/

import ServerGo.Storage.TieredStore

namespace ServerGo.Storage

open ServerGo.Math

namespace TieredStore

variable {DB : Type} [CdDB DB] {hashes : Hashes}

/-- All that a store holds, recovered rows aside, are records of one kind, and in its
columns such as some process has filed at their entity. -/
structure HoldsOnly (hashes : Hashes) (recovered : EntityId → Row) (kind : SignedRecord → Prop)
    (filed : EntityId → SignedRecord → Prop) (store : TieredStore DB) : Prop where
  hot : ∀ entityId cached, store.hotIndex.get entityId = some cached →
    ∃ record, kind record ∧ hotSlot (hashes.entityId record) = hotSlot entityId ∧
      cached = record.toCached
  pending : ∀ command ∈ (CdDB.contents store.db).pending,
    ∃ record, kind record ∧ command = record.toInsertFast hashes
  rows : ∀ entityId, (CdDB.contents store.db).rows entityId = recovered entityId ∨
    ∃ record, filed entityId record ∧
      (CdDB.contents store.db).rows entityId = (record.toInsertFast hashes).row

variable {recovered : EntityId → Row} {kind : SignedRecord → Prop}
  {filed : EntityId → SignedRecord → Prop} {store : TieredStore DB}

theorem holdsOnly_new {db : DB} (hidle : CdDB.IsIdle db) :
    (new db).HoldsOnly hashes (CdDB.contents db).rows kind filed where
  hot entityId cached hcached := by
    rw [new_hotIndex_get] at hcached
    cases hcached
  pending command hmem := by
    have hpending : command ∈ (CdDB.contents db).pending := hmem
    rw [hidle] at hpending
    cases hpending
  rows _ := Or.inl rfl

/-- It may be said of a wider kind. -/
theorem HoldsOnly.mono {wider : SignedRecord → Prop}
    {widerFiled : EntityId → SignedRecord → Prop}
    (hholds : store.HoldsOnly hashes recovered kind filed)
    (hwider : ∀ record, kind record → wider record)
    (hfiled : ∀ entityId record, filed entityId record → widerFiled entityId record) :
    store.HoldsOnly hashes recovered wider widerFiled where
  hot entityId cached hcached := by
    obtain ⟨record, hkind, hrest⟩ := hholds.hot entityId cached hcached
    exact ⟨record, hwider record hkind, hrest⟩
  pending command hmem := by
    obtain ⟨record, hkind, hrest⟩ := hholds.pending command hmem
    exact ⟨record, hwider record hkind, hrest⟩
  rows entityId := (hholds.rows entityId).imp_right fun ⟨record, hrecord, hrow⟩ =>
    ⟨record, hfiled entityId record hrecord, hrow⟩

variable [LawfulCdDB DB]

theorem HoldsOnly.applySignedRecord (hholds : store.HoldsOnly hashes recovered kind filed)
    {record : SignedRecord} (hkind : kind record) :
    (store.applySignedRecord hashes record).HoldsOnly hashes recovered kind filed where
  hot entityId cached hcached := by
    rw [applySignedRecord_hotIndex_get] at hcached
    split at hcached
    next hslot =>
        cases hcached
        exact ⟨record, hkind, hslot, rfl⟩
    next => exact hholds.hot entityId cached hcached
  pending command hmem := by
    rw [applySignedRecord_contents] at hmem
    split at hmem
    · rcases List.mem_append.mp hmem with hold | hnew
      · exact hholds.pending command hold
      · exact ⟨record, hkind, List.mem_singleton.mp hnew⟩
    · exact hholds.pending command hmem
  rows entityId := by
    have hsame : (CdDB.contents (store.applySignedRecord hashes record).db).rows =
        (CdDB.contents store.db).rows := by
      rw [applySignedRecord_contents]
      split <;> rfl
    rw [hsame]
    exact hholds.rows entityId

theorem HoldsOnly.backgroundWrite (hholds : store.HoldsOnly hashes recovered kind filed)
    (hfiled : ∀ record, kind record → filed (hashes.entityId record) record) :
    store.backgroundWrite.HoldsOnly hashes recovered kind filed where
  hot := hholds.hot
  pending command hmem := by
    rw [backgroundWrite_contents] at hmem
    exact hholds.pending command (WriteBehind.writeOne_pending_subset _ hmem)
  rows entityId := by
    rw [backgroundWrite_contents]
    rcases WriteBehind.writeOne_rows InsertFast.entityId InsertFast.row
      (CdDB.contents store.db) entityId with hsame | ⟨command, hmem, hkey, hrow⟩
    · rw [hsame]
      exact hholds.rows entityId
    · obtain ⟨record, hkind, rfl⟩ := hholds.pending command hmem
      exact Or.inr ⟨record, hkey ▸ hfiled record hkind, hrow⟩

/-- The new process may have any keys: nothing is in its slots or its queue. -/
theorem HoldsOnly.restart (hholds : store.HoldsOnly hashes recovered kind filed)
    (ahash : Hash32 → EntityId) :
    store.restart.HoldsOnly (hashes.withKeys ahash) recovered kind filed where
  hot entityId cached hcached := by
    rw [TieredStore.restart, new_hotIndex_get] at hcached
    cases hcached
  pending command hmem := by
    have hpending : command ∈ (CdDB.contents (CdDB.reopen store.db)).pending := hmem
    rw [LawfulCdDB.contents_reopen] at hpending
    cases hpending
  rows entityId := by
    have hsame : (CdDB.contents store.restart.db).rows = (CdDB.contents store.db).rows := by
      rw [TieredStore.restart, new, LawfulCdDB.contents_reopen]
    rw [hsame]
    exact hholds.rows entityId

end TieredStore

end ServerGo.Storage
