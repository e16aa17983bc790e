/-
# The execution layer and runs of a store

`L2Executor` maps keys to records: a value is stored under the SHA-256 of its
key, with the key hash as the first 32 bytes of the payload. `Call` lists what
can happen to one store, and a run performs a list of calls one after the other.
On a store that refines the slot table, what a run leaves is read off its calls.
-/

import ServerGo.Storage.StateStore

namespace ServerGo.Storage

open ServerGo.Math

/-- The record type of key-value records. -/
def kvType : UInt32 := 100

/-- `b"stress:"`, the prefix of keys that are not broadcast. -/
def stressPrefix : Bytes := [115, 116, 114, 101, 115, 115, 58]

/-- The record `L2Executor::put` builds for a key and a value. -/
def kvRecord (hashes : Hashes) (key val : Bytes) : SignedRecord where
  epochId := 0
  payload := (hashes.sha256 key).toList ++ val
  judgeSignature := zeroSignature
  recordType := kvType

/-- The value `L2Executor::get` reads out of a record: key-value records lose
their 32-byte header, any other payload is returned whole. -/
def SignedRecord.value (record : SignedRecord) : Bytes :=
  if record.recordType = kvType ∧ record.payload.length ≥ 32 then record.payload.drop 32
  else record.payload

namespace L2Executor

variable (hashes : Hashes) {S : Type} [StateStore S]

/-- `L2Executor::get`. -/
def get (storage : S) (key : Bytes) : Option Bytes :=
  match StateStore.getRecord hashes storage (hashes.sha256 key) with
  | some record => some record.value
  | none => none

/-- `L2Executor::put`: the store afterwards, and the record handed to
`broadcast_record` unless the key is a stress key. -/
def put (storage : S) (key val : Bytes) : S × Option SignedRecord :=
  let record := kvRecord hashes key val
  (StateStore.applySignedRecord hashes storage record,
    if stressPrefix.isPrefixOf key then none else some record)

theorem get_eq_map (storage : S) (key : Bytes) :
    get hashes storage key =
      (StateStore.getRecord hashes storage (hashes.sha256 key)).map SignedRecord.value := by
  rw [get]
  cases StateStore.getRecord hashes storage (hashes.sha256 key) <;> rfl

end L2Executor

section

variable (hashes : Hashes) (key val : Bytes)

@[simp]
theorem address_kvRecord :
    hashes.address (kvRecord hashes key val).payload = hashes.sha256 key :=
  hashes.address_append _ _

@[simp]
theorem entityId_kvRecord :
    hashes.entityId (kvRecord hashes key val) = hashes.ahash (hashes.sha256 key) := by
  rw [Hashes.entityId, address_kvRecord]

/-- The record of a put does not depend on the keys of the process. -/
@[simp]
theorem kvRecord_withKeys (ahash : Hash32 → EntityId) :
    kvRecord (hashes.withKeys ahash) key val = kvRecord hashes key val := rfl

/-- What was put is what is read back, empty values included. -/
@[simp]
theorem value_kvRecord : (kvRecord hashes key val).value = val := by
  simp [SignedRecord.value, kvRecord]

end

/-- The hot slot of a key. -/
def keySlot (hashes : Hashes) (key : Bytes) : Nat := hotSlot (hashes.ahash (hashes.sha256 key))

@[simp]
theorem hotSlot_ahash_sha256 (hashes : Hashes) (key : Bytes) :
    hotSlot (hashes.ahash (hashes.sha256 key)) = keySlot hashes key := rfl

/-! ## Runs -/

/-- What can happen to a store: a client puts or gets, a record arrives from a
peer or from consensus, the background writer takes a turn. -/
inductive Call
  | put (key val : Bytes)
  | get (key : Bytes)
  | apply (record : SignedRecord)
  | writerTurn
  deriving DecidableEq

namespace Call

variable (hashes : Hashes)

/-- The record a call applies to the store, if it applies one. -/
def record? : Call → Option SignedRecord
  | .put key val => some (kvRecord hashes key val)
  | .get _ => none
  | .apply record => some record
  | .writerTurn => none

/-- Whether a call is one the server makes of itself: a client request or a turn
of the writer, but no record from elsewhere. -/
def IsLocal : Call → Prop
  | .apply _ => False
  | _ => True

instance : DecidablePred IsLocal := fun call =>
  match call with
  | .put _ _ => isTrue trivial
  | .get _ => isTrue trivial
  | .apply _ => isFalse not_false
  | .writerTurn => isTrue trivial

variable {S : Type} [StateStore S]

/-- The store after a call. -/
def perform (storage : S) : Call → S
  | .put key val => (L2Executor.put hashes storage key val).1
  | .get _ => storage
  | .apply record => StateStore.applySignedRecord hashes storage record
  | .writerTurn => StateStore.backgroundWrite storage

/-- The store after a list of calls, in order. -/
def run (storage : S) (calls : List Call) : S :=
  calls.foldl (perform hashes) storage

@[simp]
theorem run_nil (storage : S) : run hashes storage [] = storage := rfl

@[simp]
theorem run_concat (storage : S) (calls : List Call) (call : Call) :
    run hashes storage (calls ++ [call]) = perform hashes (run hashes storage calls) call := by
  simp [run]

/-- The records that calls apply to a store and that it accepts, in order. -/
def accepted (accepts : S → SignedRecord → Bool) (storage : S) : List Call → List SignedRecord
  | [] => []
  | call :: rest =>
      ((call.record? hashes).filter (accepts storage)).toList ++
        accepted accepts (call.perform hashes storage) rest

end Call

/-- The last record the calls applied in a slot. -/
def lastInSlot (hashes : Hashes) (slot : Nat) (calls : List Call) : Option SignedRecord :=
  latest (fun call => (call.record? hashes).bind fun record =>
    if hotSlot (hashes.entityId record) = slot then some record else none) calls

/-- Only the records of a run count. -/
theorem lastInSlot_eq_latest (hashes : Hashes) (slot : Nat) (calls : List Call) :
    lastInSlot hashes slot calls =
      latest (fun record => if hotSlot (hashes.entityId record) = slot then some record else none)
        (calls.filterMap (Call.record? hashes)) := by
  rw [latest_filterMap, lastInSlot]

namespace SlotRefinement

variable {hashes : Hashes} {S : Type} [StateStore S] (refinement : SlotRefinement hashes S)

/-- Each call keeps the store related to the table of the records applied. -/
theorem rel_perform {storage : S} {table : SlotTable} (hrel : refinement.Rel storage table)
    (call : Call) :
    refinement.Rel (call.perform hashes storage)
      (match call.record? hashes with
        | some record => table.apply hashes record
        | none => table) := by
  cases call with
  | put key val => exact refinement.rel_apply hrel _
  | get key => exact hrel
  | apply record => exact refinement.rel_apply hrel record
  | writerTurn => exact refinement.rel_backgroundWrite hrel

/-- After any run from a related start the store is the table of the records
applied, in order. -/
theorem rel_run {start : S} (hstart : refinement.Rel start SlotTable.empty) (calls : List Call) :
    refinement.Rel (Call.run hashes start calls)
      (SlotTable.applyAll hashes (calls.filterMap (Call.record? hashes))) := by
  induction calls using List.reverseRecOn with
  | nil => exact hstart
  | append_singleton calls call ih =>
      have hstep := refinement.rel_perform ih call
      rw [Call.run_concat, List.filterMap_append]
      cases hrecord : call.record? hashes with
      | none => simpa [hrecord] using hstep
      | some record => simpa [hrecord, SlotTable.applyAll] using hstep

/-- A query after a run is answered by the last record applied in its slot. -/
theorem getRecord_run {start : S} (hstart : refinement.Rel start SlotTable.empty)
    (calls : List Call) (hash : Hash32) :
    StateStore.getRecord hashes (Call.run hashes start calls) hash =
      lastInSlot hashes (hotSlot (hashes.ahash hash)) calls := by
  rw [refinement.getRecord_eq (refinement.rel_run hstart calls), SlotTable.read,
    SlotTable.applyAll_apply, lastInSlot_eq_latest]

end SlotRefinement

end ServerGo.Storage
