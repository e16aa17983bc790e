/-
# What the stores rely on of cdDB

The columnar engine is a separate crate. The stores use four things of it: a
`UserWriter` that accepts a command or reports a full queue, a background writer
that applies accepted commands in order, query sessions that read the columns of
an entity, and recovery of the applied commands when a partition is reopened.

`CdDB` names these operations and `LawfulCdDB` states what is assumed of them,
through the queue and rows that a database presents. Whether a given command is
accepted is left to the database; `BoundedCdDB` adds that only a full queue
refuses. `ReferenceDB` is the smallest database that meets all of it.
-/

import ServerGo.Math.WriteBehind
import ServerGo.Storage.Record

namespace ServerGo.Storage

open ServerGo.Math

/-- `WriteCommand::InsertFast`, the one command the stores send. -/
structure InsertFast where
  entityId : EntityId
  epoch : UInt32
  recordType : UInt32
  payload : Bytes
  deriving DecidableEq

/-- What a query session reads at one entity. A column that has nothing for the
entity reads as `none`. -/
@[ext]
structure Row where
  /-- `session.get_blob(entity_id, "payload")`. -/
  payload : Option Bytes
  /-- `session.get_int(entity_id, "epoch")`. -/
  epoch : Option UInt32
  /-- `session.get_int(entity_id, "type")`. -/
  type : Option UInt32
  deriving DecidableEq

/-- The row of an entity that was never written. -/
def Row.empty : Row := ⟨none, none, none⟩

/-- The row an applied command leaves: all three columns are written. -/
def InsertFast.row (command : InsertFast) : Row :=
  ⟨some command.payload, some command.epoch, some command.recordType⟩

/-- A partition as its users see it: the commands accepted and not yet applied,
and the columns. -/
abbrev Partition := WriteBehind EntityId InsertFast Row

/-- The operations of cdDB that the stores call or that run behind them. -/
class CdDB (DB : Type) where
  /-- `UserWriter::try_send`; `none` is the error, after which the command is
  gone. -/
  trySend : DB → InsertFast → Option DB
  /-- One turn of the background writer. -/
  writeNext : DB → DB
  /-- The same partition opened by a new process. -/
  reopen : DB → DB
  /-- What the database presents of its queue and columns. -/
  contents : DB → Partition

/-- What the stores assume of cdDB: a first-in first-out queue, an upsert for
each command, and recovery of the commands that were applied. -/
class LawfulCdDB (DB : Type) [CdDB DB] : Prop where
  contents_trySend : ∀ {db next : DB} {command : InsertFast},
    CdDB.trySend db command = some next →
      CdDB.contents next = (CdDB.contents db).enqueue command
  contents_writeNext : ∀ db : DB,
    CdDB.contents (CdDB.writeNext db) =
      (CdDB.contents db).writeOne InsertFast.entityId InsertFast.row
  contents_reopen : ∀ db : DB,
    CdDB.contents (CdDB.reopen db) = ⟨[], (CdDB.contents db).rows⟩

/-- A `UserWriter` of bounded capacity refuses a command exactly when its queue
is full. -/
class BoundedCdDB (DB : Type) [CdDB DB] (capacity : Nat) : Prop where
  trySend_isSome_iff : ∀ (db : DB) (command : InsertFast),
    (CdDB.trySend db command).isSome ↔ (CdDB.contents db).pending.length < capacity

/-- A partition nobody has written to. -/
def CdDB.IsFresh {DB : Type} [CdDB DB] (db : DB) : Prop :=
  CdDB.contents db = ⟨[], fun _ => Row.empty⟩

/-- A partition with no command in its queue, as a process finds it on opening;
its columns may hold anything recovered. -/
def CdDB.IsIdle {DB : Type} [CdDB DB] (db : DB) : Prop :=
  (CdDB.contents db).pending = []

theorem CdDB.IsFresh.isIdle {DB : Type} [CdDB DB] {db : DB} (hfresh : CdDB.IsFresh db) :
    CdDB.IsIdle db := by
  rw [CdDB.IsIdle, hfresh]

/-- A database that is nothing but a bounded queue and its columns. -/
structure ReferenceDB (capacity : Nat) where
  partition : Partition

namespace ReferenceDB

variable {capacity : Nat}

instance : CdDB (ReferenceDB capacity) where
  trySend db command :=
    if db.partition.pending.length < capacity then some ⟨db.partition.enqueue command⟩ else none
  writeNext db := ⟨db.partition.writeOne InsertFast.entityId InsertFast.row⟩
  reopen db := ⟨⟨[], db.partition.rows⟩⟩
  contents db := db.partition

instance : LawfulCdDB (ReferenceDB capacity) where
  contents_trySend := by
    intro db next command hsend
    simp only [CdDB.trySend] at hsend
    split at hsend
    · cases hsend
      rfl
    · cases hsend
  contents_writeNext _ := rfl
  contents_reopen _ := rfl

instance : BoundedCdDB (ReferenceDB capacity) capacity where
  trySend_isSome_iff db command := by
    simp only [CdDB.trySend, CdDB.contents]
    split <;> simp_all

/-- The reference database before any write. -/
def empty : ReferenceDB capacity := ⟨⟨[], fun _ => Row.empty⟩⟩

theorem isFresh_empty : CdDB.IsFresh (empty : ReferenceDB capacity) := rfl

end ReferenceDB

end ServerGo.Storage
