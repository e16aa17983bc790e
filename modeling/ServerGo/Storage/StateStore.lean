/-
# The storage trait and its abstract model

`StateStore` is the interface the executor and the gateway use. What both
implementations are for, on a fresh start, is said by `SlotTable`: one record
for each hot slot, the last one applied there. `SlotRefinement` is a simulation
of a store by that table; a store that has one answers every query as the table
does, after any run.
-/

import Mathlib.Logic.Function.Basic
import ServerGo.Math.History
import ServerGo.Storage.HotIndex

namespace ServerGo.Storage

open ServerGo.Math

/-- `io_oi_core::StateStore`, less the methods no caller in the repository uses
for answers, with the turn of the writer that runs behind the store. -/
class StateStore (S : Type) where
  /-- `get_record`. -/
  getRecord : Hashes → S → Hash32 → Option SignedRecord
  /-- `apply_signed_record`. -/
  applySignedRecord : Hashes → S → SignedRecord → S
  /-- A turn of the background writer of the store's database. -/
  backgroundWrite : S → S

/-! ## The abstract store -/

/-- One record for each hot slot: the last one applied there. -/
abbrev SlotTable := Nat → Option SignedRecord

namespace SlotTable

variable (hashes : Hashes)

/-- Nothing has been applied. -/
def empty : SlotTable := fun _ => none

/-- Applying a record replaces whatever its slot held. -/
def apply (table : SlotTable) (record : SignedRecord) : SlotTable :=
  Function.update table (hotSlot (hashes.entityId record)) (some record)

/-- A query is answered by the slot its hash selects, whoever wrote it. -/
def read (table : SlotTable) (hash : Hash32) : Option SignedRecord :=
  table (hotSlot (hashes.ahash hash))

/-- The table after a list of records, in order. -/
def applyAll (records : List SignedRecord) : SlotTable :=
  records.foldl (apply hashes) empty

/-- A slot holds the last record applied to it. -/
theorem applyAll_apply (records : List SignedRecord) (slot : Nat) :
    applyAll hashes records slot =
      latest (fun record => if hotSlot (hashes.entityId record) = slot then some record else none)
        records := by
  induction records using List.reverseRecOn with
  | nil => rfl
  | append_singleton records record ih =>
      rw [latest_concat, ← ih, applyAll, List.foldl_append, ← applyAll]
      by_cases hslot : hotSlot (hashes.entityId record) = slot
      · simp [apply, hslot]
      · simp [apply, hslot, Function.update_of_ne (Ne.symm hslot)]

variable {hashes}

/-- A hot index that holds a table holds it still when a record is applied to both. -/
theorem get_set_apply {index : GlobalHotIndex hotCapacity.toNat} {table : SlotTable}
    (hhot : ∀ entityId, index.get entityId =
      (table (hotSlot entityId)).map SignedRecord.toCached)
    (record : SignedRecord) (entityId : EntityId) :
    (index.set (hashes.entityId record) record.toCached).get entityId =
      (table.apply hashes record (hotSlot entityId)).map SignedRecord.toCached := by
  rw [get_set_hotSlot, apply, Function.update_apply]
  by_cases hslot : hotSlot (hashes.entityId record) = hotSlot entityId
  · simp [hslot]
  · rw [if_neg hslot, if_neg (Ne.symm hslot), hhot]

end SlotTable

/-- A simulation of a store by the slot table: related states answer alike, and
stay related when a record is applied and when the writer takes a turn. -/
structure SlotRefinement (hashes : Hashes) (S : Type) [StateStore S] where
  Rel : S → SlotTable → Prop
  getRecord_eq : ∀ {store : S} {table : SlotTable}, Rel store table →
    ∀ hash, StateStore.getRecord hashes store hash = table.read hashes hash
  rel_apply : ∀ {store : S} {table : SlotTable}, Rel store table →
    ∀ record, Rel (StateStore.applySignedRecord hashes store record) (table.apply hashes record)
  rel_backgroundWrite : ∀ {store : S} {table : SlotTable}, Rel store table →
    Rel (StateStore.backgroundWrite store) table

end ServerGo.Storage
