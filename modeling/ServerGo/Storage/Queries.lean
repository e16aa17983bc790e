/-
# Reading whole columns, and flushing

`get_by_epoch` goes through every entity of the partition and keeps those whose
epoch column has the epoch asked for, as wide as that column is. `flush` waits
for a fixed time and looks at nothing. Both see the partition only as far as the
background writer has come, so what it has applied is kept here as a list of its
own: accepted commands enter it in order, one for each turn of the writer.
-/

import Mathlib.Data.List.Nodup
import ServerGo.Storage.TieredRun

namespace ServerGo.Storage

open ServerGo.Math

/-- `QuerySession::entities_iter`. -/
class EntityIndex (DB : Type) where
  entitiesIter : DB → List EntityId

/-- Every entity with anything in its columns is listed, and none twice. -/
class LawfulEntityIndex (DB : Type) [CdDB DB] [EntityIndex DB] : Prop where
  nodup : ∀ db : DB, (EntityIndex.entitiesIter db).Nodup
  mem_of_row : ∀ (db : DB) (entityId : EntityId), (CdDB.contents db).rows entityId ≠ Row.empty →
    entityId ∈ EntityIndex.entitiesIter db

/-- What `get_by_epoch` makes of the row of an entity. -/
def Row.toSignedOfEpoch (epochId : EpochId) (row : Row) : Option SignedRecord :=
  match row.epoch with
  | some epoch =>
      if epoch.toUInt64 = epochId then
        match row.payload with
        | some payload =>
            some {
              epochId := epochId
              payload := payload
              judgeSignature := zeroSignature
              recordType := row.type.getD 0 }
        | none => none
      else none
  | none => none

namespace TieredStore

variable {DB : Type} [CdDB DB]

/-- `TieredStore::get_by_epoch`. -/
def getByEpoch [EntityIndex DB] (store : TieredStore DB) (epochId : EpochId) : List SignedRecord :=
  (EntityIndex.entitiesIter store.db).filterMap fun entityId =>
    ((CdDB.contents store.db).rows entityId).toSignedOfEpoch epochId

omit [CdDB DB] in
/-- `TieredStore::flush`: a sleep of 150 milliseconds. -/
def flush (store : TieredStore DB) : TieredStore DB := store

/-! ## What the writer has applied -/

variable (hashes : Hashes)

/-- The commands the background writer applies in the course of a run. -/
def applied (store : TieredStore DB) : List Call → List InsertFast
  | [] => []
  | call :: rest =>
      (if call = .writerTurn then (CdDB.contents store.db).pending.head?.toList else []) ++
        applied (call.perform hashes store) rest

variable {hashes}

theorem applied_append (store : TieredStore DB) (calls later : List Call) :
    applied hashes store (calls ++ later) =
      applied hashes store calls ++ applied hashes (Call.run hashes store calls) later := by
  induction calls generalizing store with
  | nil => rfl
  | cons call calls ih =>
      rw [List.cons_append, applied, applied, ih, List.append_assoc]
      rfl

variable [LawfulCdDB DB]

variable (hashes) in
/-- **Nothing is lost in the queue.** What was waiting, then what was accepted,
is what has been applied, then what is waiting. -/
theorem applied_append_pending (store : TieredStore DB) (calls : List Call) :
    applied hashes store calls ++ (CdDB.contents (Call.run hashes store calls).db).pending =
      (CdDB.contents store.db).pending ++
        (accepted hashes store calls).map (SignedRecord.toInsertFast hashes) := by
  induction calls generalizing store with
  | nil => simp [applied, Call.accepted]
  | cons call calls ih =>
      have hrecord : ∀ record, call.record? hashes = some record →
          call.perform hashes store = store.applySignedRecord hashes record →
          call ≠ .writerTurn →
            applied hashes store (call :: calls) ++
              (CdDB.contents (Call.run hashes store (call :: calls)).db).pending =
            (CdDB.contents store.db).pending ++
              (accepted hashes store (call :: calls)).map (SignedRecord.toInsertFast hashes) := by
        intro record hrecord hperform hother
        rw [applied, accepted, Call.accepted, if_neg hother, List.nil_append, hrecord]
        show _ ++ (CdDB.contents (Call.run hashes (call.perform hashes store) calls).db).pending = _
        rw [ih, hperform, applySignedRecord_contents]
        cases haccepts : store.accepts hashes record <;> simp [Option.filter, haccepts]
      cases call with
      | put key val => exact hrecord _ rfl rfl (by simp)
      | get key => exact ih store
      | apply record => exact hrecord record rfl rfl (by simp)
      | writerTurn =>
          have hafter : (CdDB.contents store.backgroundWrite.db).pending =
              (CdDB.contents store.db).pending.tail := by
            rw [backgroundWrite_contents, WriteBehind.writeOne_pending]
          rw [applied, accepted, Call.accepted, if_pos rfl, List.append_assoc]
          show _ ++ (applied hashes store.backgroundWrite calls ++
            (CdDB.contents (Call.run hashes store.backgroundWrite calls).db).pending) = _
          rw [ih, hafter]
          cases (CdDB.contents store.db).pending <;> rfl

/-- The columns are what the applied commands make of those there were. -/
theorem rows_run (store : TieredStore DB) (calls : List Call) :
    (CdDB.contents (Call.run hashes store calls).db).rows =
      WriteBehind.applyAll InsertFast.entityId InsertFast.row (applied hashes store calls)
        (CdDB.contents store.db).rows := by
  induction calls generalizing store with
  | nil => rfl
  | cons call calls ih =>
      have hkept : ∀ record, (CdDB.contents (store.applySignedRecord hashes record).db).rows =
          (CdDB.contents store.db).rows := by
        intro record
        rw [applySignedRecord_contents]
        split <;> rfl
      show (CdDB.contents (Call.run hashes (call.perform hashes store) calls).db).rows = _
      rw [ih, applied]
      cases call with
      | put key val => exact congrArg _ (hkept _)
      | get key => rfl
      | apply record => exact congrArg _ (hkept record)
      | writerTurn =>
          rw [if_pos rfl, WriteBehind.applyAll, WriteBehind.applyAll, List.foldl_append]
          congr 1
          show (CdDB.contents store.backgroundWrite.db).rows = _
          rw [backgroundWrite_contents, WriteBehind.writeOne]
          cases (CdDB.contents store.db).pending <;> rfl

variable (hashes) in
/-- A turn of the writer applies at most one command, and applies one as long as
the queue is not empty. -/
theorem length_applied (store : TieredStore DB) (calls : List Call) :
    min (CdDB.contents store.db).pending.length (calls.count .writerTurn) ≤
        (applied hashes store calls).length ∧
      (applied hashes store calls).length ≤ calls.count .writerTurn := by
  induction calls generalizing store with
  | nil => simp [applied]
  | cons call calls ih =>
      obtain ⟨hleast, hmost⟩ := ih (call.perform hashes store)
      by_cases hturn : call = .writerTurn
      · subst hturn
        have hafter : (CdDB.contents (Call.writerTurn.perform hashes store).db).pending =
            (CdDB.contents store.db).pending.tail := by
          show (CdDB.contents store.backgroundWrite.db).pending = _
          rw [backgroundWrite_contents, WriteBehind.writeOne_pending]
        rw [hafter, List.length_tail] at hleast
        rw [applied, if_pos rfl, List.count_cons_self, List.length_append]
        cases hpending : (CdDB.contents store.db).pending with
        | nil => simpa using hmost.trans (Nat.le_succ _)
        | cons head rest =>
            simp only [hpending, List.length_cons, List.head?_cons, Option.toList_some,
              List.length_nil] at hleast ⊢
            omega
      · have hgrows : (CdDB.contents store.db).pending.length ≤
            (CdDB.contents (call.perform hashes store).db).pending.length := by
          have happly : ∀ record, (CdDB.contents store.db).pending.length ≤
              (CdDB.contents (store.applySignedRecord hashes record).db).pending.length := by
            intro record
            rw [applySignedRecord_contents]
            split <;> simp
          cases call with
          | put key val => exact happly _
          | get key => exact le_rfl
          | apply record => exact happly record
          | writerTurn => exact absurd rfl hturn
        rw [applied, if_neg hturn, List.nil_append, List.count_cons_of_ne hturn]
        exact ⟨by omega, hmost⟩

/-- **When the queue has been worked off.** All that was waiting has been applied
exactly when the writer has had a turn for each command. -/
theorem pending_prefix_applied_iff (store : TieredStore DB) (calls : List Call) :
    (CdDB.contents store.db).pending <+: applied hashes store calls ↔
      (CdDB.contents store.db).pending.length ≤ calls.count .writerTurn := by
  obtain ⟨hleast, hmost⟩ := length_applied hashes store calls
  constructor
  · exact fun hprefix => hprefix.length_le.trans hmost
  · intro hturns
    have hwhole := applied_append_pending hashes store calls
    refine List.prefix_of_prefix_length_le (List.prefix_append _ _)
      (hwhole ▸ List.prefix_append _ _) ?_
    rwa [min_eq_left hturns] at hleast

end TieredStore

/-! ## A database that lists its entities -/

/-- A bounded queue and its columns, with the entities that were written. -/
structure IndexedDB (capacity : Nat) where
  partition : Partition
  entities : List EntityId
  nodup : entities.Nodup
  mem_of_row : ∀ entityId, partition.rows entityId ≠ Row.empty → entityId ∈ entities

namespace IndexedDB

variable {capacity : Nat}

/-- One turn of the writer also lists the entity it writes. -/
def writeNext (db : IndexedDB capacity) : IndexedDB capacity where
  partition := db.partition.writeOne InsertFast.entityId InsertFast.row
  entities := (db.partition.pending.head?.map InsertFast.entityId).elim db.entities
    fun entityId => db.entities.insert entityId
  nodup := by
    cases db.partition.pending with
    | nil => exact db.nodup
    | cons head rest => exact db.nodup.insert
  mem_of_row := by
    intro entityId hrow
    rw [WriteBehind.writeOne] at hrow
    cases hpending : db.partition.pending with
    | nil =>
        rw [hpending] at hrow
        exact db.mem_of_row entityId hrow
    | cons head rest =>
        rw [hpending] at hrow
        refine List.mem_insert_iff.mpr ?_
        by_cases hhead : entityId = head.entityId
        · exact Or.inl hhead
        · simp only [Function.update_of_ne hhead] at hrow
          exact Or.inr (db.mem_of_row entityId hrow)

instance : CdDB (IndexedDB capacity) where
  trySend db command :=
    if db.partition.pending.length < capacity then
      some { db with partition := db.partition.enqueue command }
    else none
  writeNext := writeNext
  reopen db := { db with partition := ⟨[], db.partition.rows⟩ }
  contents db := db.partition

instance : LawfulCdDB (IndexedDB capacity) where
  contents_trySend := by
    intro db next command hsend
    simp only [CdDB.trySend] at hsend
    split at hsend
    · cases hsend
      rfl
    · cases hsend
  contents_writeNext _ := rfl
  contents_reopen _ := rfl

instance : EntityIndex (IndexedDB capacity) where
  entitiesIter db := db.entities

instance : LawfulEntityIndex (IndexedDB capacity) where
  nodup db := db.nodup
  mem_of_row db := db.mem_of_row

/-- The database before any write. -/
def empty : IndexedDB capacity where
  partition := ⟨[], fun _ => Row.empty⟩
  entities := []
  nodup := List.nodup_nil
  mem_of_row _ hrow := absurd rfl hrow

end IndexedDB

end ServerGo.Storage
