/-
# Stores in front of a partition

Both stores send every record they apply to a partition of cdDB, as a command that
each makes in its own way, and drop what comes of it. `WriteThrough` says what a
store does to its partition. From this alone follows what the columns will hold
after a run: for each entity, what the last record of it that was accepted was sent
as.
-/

import ServerGo.Storage.Database
import ServerGo.Storage.Executor

namespace ServerGo.Storage

open ServerGo.Math

/-- What a store does to the partition behind it: a record that is applied enters
its queue as one command, if it is accepted, and a turn of the writer applies the
oldest command. -/
structure WriteThrough (hashes : Hashes) (S : Type) [StateStore S] where
  partition : S → Partition
  command : SignedRecord → InsertFast
  accepts : S → SignedRecord → Bool
  command_entityId : ∀ record, (command record).entityId = hashes.entityId record
  partition_apply : ∀ (store : S) (record : SignedRecord),
    partition (StateStore.applySignedRecord hashes store record) =
      if accepts store record then (partition store).enqueue (command record)
      else partition store
  partition_backgroundWrite : ∀ store : S,
    partition (StateStore.backgroundWrite store) =
      (partition store).writeOne InsertFast.entityId InsertFast.row

namespace WriteThrough

variable {hashes : Hashes} {S : Type} [StateStore S] (through : WriteThrough hashes S)

/-- What the columns will hold once the queue is empty. -/
def settled (store : S) : EntityId → Row :=
  (through.partition store).settled InsertFast.entityId InsertFast.row

/-- The records of a run whose commands are accepted, in order. -/
abbrev accepted (store : S) (calls : List Call) : List SignedRecord :=
  Call.accepted hashes through.accepts store calls

theorem settled_apply (store : S) (record : SignedRecord) :
    through.settled (StateStore.applySignedRecord hashes store record) =
      WriteBehind.applyAll InsertFast.entityId InsertFast.row
        (((some record).filter (through.accepts store)).toList.map through.command)
          (through.settled store) := by
  rw [settled, through.partition_apply, Option.filter_some]
  split
  · exact WriteBehind.settled_enqueue _ _
  · rfl

/-- A call sends the command of its record, if that is accepted. -/
theorem settled_perform (store : S) (call : Call) :
    through.settled (call.perform hashes store) =
      WriteBehind.applyAll InsertFast.entityId InsertFast.row
        (((call.record? hashes).filter (through.accepts store)).toList.map through.command)
          (through.settled store) := by
  cases call with
  | put key val => exact through.settled_apply store _
  | get key => rfl
  | apply record => exact through.settled_apply store record
  | writerTurn =>
      exact (congrArg _ (through.partition_backgroundWrite store)).trans
        (WriteBehind.settled_writeOne _)

/-- **What the columns settle on.** After any run, whatever turns the writer has
taken, an entity will hold what the last accepted record of it was sent as, and
what it would have held before if there is none. -/
theorem settled_run (start : S) (calls : List Call) (entityId : EntityId) :
    through.settled (Call.run hashes start calls) entityId =
      ((latest (fun record => if hashes.entityId record = entityId then some record else none)
        (through.accepted start calls)).map fun record => (through.command record).row).getD
          (through.settled start entityId) := by
  have hcommands : through.settled (Call.run hashes start calls) =
      WriteBehind.applyAll InsertFast.entityId InsertFast.row
        ((through.accepted start calls).map through.command) (through.settled start) := by
    induction calls generalizing start with
    | nil => rfl
    | cons call rest ih =>
        have hrest := ih (call.perform hashes start)
        rw [through.settled_perform, WriteBehind.applyAll, WriteBehind.applyAll,
          ← List.foldl_append, ← List.map_append] at hrest
        exact hrest
  rw [hcommands, WriteBehind.applyAll_apply, latest_comp, ← latest_map]
  congr 1
  refine latest_congr fun record _ => ?_
  rw [through.command_entityId]
  split <;> rfl

/-- The columns after a run from an empty partition whose commands were all accepted
and applied: of each entity, the last record. -/
theorem rows_of_drained {start : S}
    (hfresh : through.partition start = ⟨[], fun _ => Row.empty⟩) {calls : List Call}
    (haccepted : through.accepted start calls = calls.filterMap (Call.record? hashes))
    (hdrained : (through.partition (Call.run hashes start calls)).pending = [])
    (entityId : EntityId) :
    (through.partition (Call.run hashes start calls)).rows entityId =
      ((latest (fun record => if hashes.entityId record = entityId then some record else none)
        (calls.filterMap (Call.record? hashes))).map fun record =>
          (through.command record).row).getD Row.empty := by
  have hempty : through.settled start entityId = Row.empty := by
    rw [settled, hfresh]
    rfl
  have hsettled := through.settled_run start calls entityId
  rwa [settled, WriteBehind.settled_of_pending_eq_nil hdrained, haccepted, hempty] at hsettled

end WriteThrough

end ServerGo.Storage
