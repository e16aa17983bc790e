/-
# What a restart changes

A restart empties the hot index and keeps the columns, and the process that comes
after has `AHasher` keys of its own: it looks for an address at another entity than
the one under which the records of that address were filed. Where the two coincide,
what was served from the hot copy is rebuilt from a row, and a row holds neither the
signature nor the high half of the epoch; and a record that a slot collision had
hidden becomes visible again. The results below say exactly when none of this can be
observed.
-/

import ServerGo.Storage.TieredRun

namespace ServerGo.Analysis

open ServerGo.Math ServerGo.Storage

/-- The copy of a record that its row gives back. -/
def coldCopy (record : SignedRecord) : SignedRecord :=
  { record with
    epochId := record.epochId.toUInt32.toUInt64
    judgeSignature := zeroSignature }

/-- A record none of whose fields the columns lose. -/
def SurvivesColumns (record : SignedRecord) : Prop :=
  record.epochId.toNat < 2 ^ 32 ∧ record.judgeSignature = zeroSignature

/-- The two encodings of a record agree exactly when the columns lose nothing.
-/
theorem coldCopy_eq_self_iff (record : SignedRecord) :
    coldCopy record = record ↔ SurvivesColumns record := by
  have hepoch : record.epochId.toUInt32.toUInt64 = record.epochId ↔
      record.epochId.toNat < 2 ^ 32 := by
    rw [← UInt64.toNat_inj, UInt32.toNat_toUInt64, UInt64.toNat_toUInt32]
    exact Nat.mod_eq_iff_lt (by decide)
  rw [SignedRecord.ext_iff, SurvivesColumns, ← hepoch]
  simp [coldCopy, eq_comm]

variable {hashes : Hashes} {DB : Type} [CdDB DB]

theorem toSigned_row (record : SignedRecord) :
    (record.toInsertFast hashes).row.toSigned = some (coldCopy record) := rfl

/-- Turns of the writer leave the hot index alone. -/
theorem hotIndex_iterate_backgroundWrite (store : TieredStore DB) (turns : Nat) :
    (TieredStore.backgroundWrite^[turns] store).hotIndex = store.hotIndex := by
  induction turns with
  | zero => rfl
  | succ turns ih => rw [Function.iterate_succ_apply', TieredStore.backgroundWrite_hotIndex, ih]

variable [LawfulCdDB DB]

/-- Turns of the writer leave the settled rows alone. -/
theorem settledRows_iterate_backgroundWrite (store : TieredStore DB) (turns : Nat) :
    (TieredStore.backgroundWrite^[turns] store).settledRows = store.settledRows := by
  induction turns with
  | zero => rfl
  | succ turns ih => rw [Function.iterate_succ_apply', TieredStore.settledRows_backgroundWrite, ih]

/-- A store restarted with an empty queue answers from its settled rows, at the
entities that the new process computes. -/
theorem getRecord_restart {store : TieredStore DB} (hidle : CdDB.IsIdle store.db)
    (other : Hashes) (hash : Hash32) :
    store.restart.getRecord other hash = (store.settledRows (other.ahash hash)).toSigned := by
  have hhot : store.restart.loadHot other hash = none := by
    simp [TieredStore.loadHot, TieredStore.restart]
  have hrows : (CdDB.contents store.restart.db).rows = (CdDB.contents store.db).rows := by
    show (CdDB.contents (CdDB.reopen store.db)).rows = _
    rw [LawfulCdDB.contents_reopen]
  rw [TieredStore.getRecord, hhot, TieredStore.settledRows_of_isIdle hidle]
  simp [TieredStore.readColumns, hrows]

/-! ## One record -/

omit [LawfulCdDB DB] in
/-- Served hot, the record just applied comes back as it was. -/
theorem getRecord_hot (store : TieredStore DB) (record : SignedRecord) (turns : Nat) :
    (TieredStore.backgroundWrite^[turns]
      (store.applySignedRecord hashes record)).getRecord hashes (hashes.address record.payload) =
        some record := by
  have hhot : (TieredStore.backgroundWrite^[turns]
      (store.applySignedRecord hashes record)).loadHot hashes (hashes.address record.payload) =
        some record := by
    rw [TieredStore.loadHot, hotIndex_iterate_backgroundWrite,
      TieredStore.applySignedRecord_hotIndex_get, ← Hashes.entityId, if_pos rfl]
    rfl
  rw [TieredStore.getRecord, hhot]

/-- Served cold, what comes back is what the columns hold at the entity that the new
process computes: the row of the record if that is its own entity, and else what was
there before. -/
theorem getRecord_cold {store : TieredStore DB} {record : SignedRecord} {turns : Nat}
    (haccepts : store.accepts hashes record)
    (hidle : CdDB.IsIdle
      (TieredStore.backgroundWrite^[turns] (store.applySignedRecord hashes record)).db)
    (keys : Hash32 → EntityId) :
    (TieredStore.backgroundWrite^[turns]
      (store.applySignedRecord hashes record)).restart.getRecord (hashes.withKeys keys)
        (hashes.address record.payload) =
      if keys (hashes.address record.payload) = hashes.entityId record then
        some (coldCopy record)
      else (store.settledRows (keys (hashes.address record.payload))).toSigned := by
  rw [getRecord_restart hidle, settledRows_iterate_backgroundWrite,
    TieredStore.settledRows_applySignedRecord, if_pos haccepts]
  show (Function.update store.settledRows (hashes.entityId record)
    (record.toInsertFast hashes).row (keys (hashes.address record.payload))).toSigned = _
  rw [Function.update_apply]
  split
  · exact toSigned_row record
  · rfl

/-- A record comes back whole from settled columns to which it is added, in a process
with these keys: it is found at its own entity, and the columns lose nothing of it; or
another entity is looked up, and that held this very record before. -/
def IsReadBack (hashes : Hashes) (keys : Hash32 → EntityId) (settled : EntityId → Row)
    (record : SignedRecord) : Prop :=
  if keys (hashes.address record.payload) = hashes.entityId record then SurvivesColumns record
  else (settled (keys (hashes.address record.payload))).toSigned = some record

/-! ## Whole runs -/

/-- What queries return: each address that has an answer, with the record it shows. -/
def observable (hashes : Hashes) (store : TieredStore DB) : Set (Hash32 × SignedRecord) :=
  {shown | store.getRecord hashes shown.1 = some shown.2}

/-- The record that the columns give back at an entity after a run whose commands have
all been applied. -/
def coldRecord (hashes : Hashes) (recovered : EntityId → Row) (calls : List Call)
    (entityId : EntityId) : Option SignedRecord :=
  ((TieredStore.lastOfEntity hashes entityId (calls.filterMap (Call.record? hashes))).map
    coldCopy).or (recovered entityId).toSigned

/-- An address shows in a process with these keys what it showed in the one before.
Where the run reached its hot slot, that is the last record there: it must have been
filed where the new process looks, and lose nothing, or have been recovered there and
not overwritten. Where the run left the slot alone, it is what had been recovered. -/
def ShowsSame (hashes : Hashes) (keys : Hash32 → EntityId) (recovered : EntityId → Row)
    (calls : List Call) (hash : Hash32) : Prop :=
  match lastInSlot hashes (hotSlot (hashes.ahash hash)) calls with
  | some record =>
      if keys hash = hashes.entityId record then SurvivesColumns record
      else
        TieredStore.lastOfEntity hashes (keys hash) (calls.filterMap (Call.record? hashes)) =
          none ∧ (recovered (keys hash)).toSigned = some record
  | none =>
      coldRecord hashes recovered calls (keys hash) = (recovered (hashes.ahash hash)).toSigned

section

omit [CdDB DB] [LawfulCdDB DB]

/-- The last record of a slot lies in that slot and is the last of its entity. -/
theorem lastOfEntity_of_lastInSlot {slot : Nat} {calls : List Call} {record : SignedRecord}
    (hlast : lastInSlot hashes slot calls = some record) :
    hotSlot (hashes.entityId record) = slot ∧
      TieredStore.lastOfEntity hashes (hashes.entityId record)
        (calls.filterMap (Call.record? hashes)) = some record := by
  rw [lastInSlot_eq_latest] at hlast
  have hslot : hotSlot (hashes.entityId record) = slot := by
    obtain ⟨other, -, hread⟩ := exists_mem_of_latest hlast
    obtain ⟨hslot, hother⟩ := Option.ite_none_right_eq_some.mp hread
    cases hother
    exact hslot
  refine ⟨hslot, ?_⟩
  have hcover : ∀ other ∈ calls.filterMap (Call.record? hashes),
      (if hotSlot (hashes.entityId other) = slot then some other else none) = none →
        (if hashes.entityId other = hashes.entityId record then some other else none) = none := by
    intro other _ hother
    rw [ite_eq_right_iff] at hother ⊢
    intro hentity
    exact hother (hentity ▸ hslot)
  obtain ⟨other, -, hread, hfollow⟩ := latest_of_coarser hcover hlast
  obtain ⟨-, hother⟩ := Option.ite_none_right_eq_some.mp hread
  cases hother
  exact hfollow record (if_pos rfl)

/-- The last record of an entity is of that entity. -/
theorem entityId_of_lastOfEntity {entityId : EntityId} {records : List SignedRecord}
    {record : SignedRecord}
    (hlast : TieredStore.lastOfEntity hashes entityId records = some record) :
    hashes.entityId record = entityId := by
  obtain ⟨other, -, hread⟩ := exists_mem_of_latest hlast
  obtain ⟨hentity, hother⟩ := Option.ite_none_right_eq_some.mp hread
  cases hother
  exact hentity

/-- Where the columns give the last record of a slot back. -/
theorem coldRecord_eq_some_iff {recovered : EntityId → Row} {slot : Nat} {calls : List Call}
    {record : SignedRecord} (hlast : lastInSlot hashes slot calls = some record)
    (entityId : EntityId) :
    coldRecord hashes recovered calls entityId = some record ↔
      if entityId = hashes.entityId record then SurvivesColumns record
      else
        TieredStore.lastOfEntity hashes entityId (calls.filterMap (Call.record? hashes)) = none ∧
          (recovered entityId).toSigned = some record := by
  rw [coldRecord]
  split
  next hentity =>
      rw [hentity, (lastOfEntity_of_lastInSlot hlast).2, Option.map_some, Option.some_or,
        Option.some_inj, coldCopy_eq_self_iff]
  next hentity =>
      cases hown : TieredStore.lastOfEntity hashes entityId
        (calls.filterMap (Call.record? hashes)) with
      | none => simp
      | some own =>
          -- what lies there has another address than the record
          refine iff_of_false (fun hcopy => hentity ?_) fun hnone => by cases hnone.1
          have hsame : coldCopy own = record := Option.some.inj hcopy
          rw [← hsame, ← entityId_of_lastOfEntity hown]
          rfl

end

/-- After a drained run with every command accepted, a restarted store answers from
the columns, at the entities that the new process computes. -/
theorem getRecord_restart_run {db : DB} (hidle : CdDB.IsIdle db) {calls : List Call}
    (haccepted : TieredStore.accepted hashes (TieredStore.new db) calls =
      calls.filterMap (Call.record? hashes))
    (hdrained : CdDB.IsIdle (Call.run hashes (TieredStore.new db) calls).db)
    (keys : Hash32 → EntityId) (hash : Hash32) :
    (Call.run hashes (TieredStore.new db) calls).restart.getRecord (hashes.withKeys keys) hash =
      coldRecord hashes (CdDB.contents db).rows calls (keys hash) := by
  have hstart : (TieredStore.new db).settledRows = (CdDB.contents db).rows :=
    TieredStore.settledRows_of_isIdle hidle
  rw [getRecord_restart hdrained, TieredStore.settledRows_run, haccepted, hstart, coldRecord]
  dsimp only [Hashes.withKeys]
  cases TieredStore.lastOfEntity hashes (keys hash) (calls.filterMap (Call.record? hashes)) <;> rfl

/-- An address shows the same before and after the restart of a drained store exactly
when what the run left of it says so. -/
theorem getRecord_eq_restart_iff {db : DB} (hidle : CdDB.IsIdle db) {calls : List Call}
    (haccepted : TieredStore.accepted hashes (TieredStore.new db) calls =
      calls.filterMap (Call.record? hashes))
    (hdrained : CdDB.IsIdle (Call.run hashes (TieredStore.new db) calls).db)
    (keys : Hash32 → EntityId) (hash : Hash32) :
    (Call.run hashes (TieredStore.new db) calls).getRecord hashes hash =
      (Call.run hashes (TieredStore.new db) calls).restart.getRecord (hashes.withKeys keys) hash ↔
        ShowsSame hashes keys (CdDB.contents db).rows calls hash := by
  rw [TieredStore.getRecord_run hidle, getRecord_restart_run hidle haccepted hdrained, ShowsSame,
    eq_comm]
  cases hlast : lastInSlot hashes (hotSlot (hashes.ahash hash)) calls with
  | some record => exact coldRecord_eq_some_iff hlast (keys hash)
  | none => rfl

/-- **When hot and cold reads agree.** A record whose command was accepted and drained
is read back alike hot and, after a restart that draws any keys, cold if and only if
the new process looks for it where it was filed, its epoch fits 32 bits and its
signature is zero, or else finds this very record where it looks; and what is
observable after a drained run is the same before and after the restart if and only
if each address shows the same. -/
theorem hot_eq_cold_iff (hashes : Hashes) (keys : Hash32 → EntityId) :
    (∀ (store : TieredStore DB) (record : SignedRecord) (turns : Nat),
      store.accepts hashes record →
      CdDB.IsIdle (TieredStore.backgroundWrite^[turns] (store.applySignedRecord hashes record)).db →
        ((TieredStore.backgroundWrite^[turns]
            (store.applySignedRecord hashes record)).getRecord hashes
              (hashes.address record.payload) =
          (TieredStore.backgroundWrite^[turns]
            (store.applySignedRecord hashes record)).restart.getRecord (hashes.withKeys keys)
              (hashes.address record.payload) ↔
          IsReadBack hashes keys store.settledRows record)) ∧
    (∀ (db : DB) (calls : List Call), CdDB.IsIdle db →
      TieredStore.accepted hashes (TieredStore.new db) calls =
        calls.filterMap (Call.record? hashes) →
      CdDB.IsIdle (Call.run hashes (TieredStore.new db) calls).db →
        (observable hashes (Call.run hashes (TieredStore.new db) calls) =
          observable (hashes.withKeys keys)
            (Call.run hashes (TieredStore.new db) calls).restart ↔
          ∀ hash, ShowsSame hashes keys (CdDB.contents db).rows calls hash)) := by
  constructor
  · intro store record turns haccepts hdrained
    rw [getRecord_hot, getRecord_cold haccepts hdrained, IsReadBack]
    split
    · rw [Option.some_inj, eq_comm, coldCopy_eq_self_iff]
    · exact eq_comm
  · intro db calls hidle haccepted hdrained
    constructor
    · intro hsame hash
      refine (getRecord_eq_restart_iff hidle haccepted hdrained keys hash).mp (Option.ext ?_)
      intro record
      exact Set.ext_iff.mp hsame (hash, record)
    · intro hshows
      ext ⟨hash, record⟩
      have hhash := (getRecord_eq_restart_iff hidle haccepted hdrained keys hash).mpr (hshows hash)
      exact iff_of_eq (congrArg (· = some record) hhash)

/-- Two keys are put and their commands applied. -/
def twoKeys : List Call := [.put keyA [1], .put keyB [2], .writerTurn, .writerTurn]

theorem hot_eq_cold_iff_keyA :
    ((TieredStore.backgroundWrite^[1]
        ((TieredStore.new (ReferenceDB.empty : ReferenceDB 8)).applySignedRecord sampleHashes
          (kvRecord sampleHashes keyA [1]))).getRecord sampleHashes
            (sampleHashes.address (kvRecord sampleHashes keyA [1]).payload) =
      (TieredStore.backgroundWrite^[1]
        ((TieredStore.new (ReferenceDB.empty : ReferenceDB 8)).applySignedRecord sampleHashes
          (kvRecord sampleHashes keyA [1]))).restart.getRecord
            (sampleHashes.withKeys sampleHashes.ahash)
              (sampleHashes.address (kvRecord sampleHashes keyA [1]).payload) ↔
      IsReadBack sampleHashes sampleHashes.ahash
        (TieredStore.new (ReferenceDB.empty : ReferenceDB 8)).settledRows
          (kvRecord sampleHashes keyA [1])) ∧
    (observable sampleHashes
        (Call.run sampleHashes (TieredStore.new (ReferenceDB.empty : ReferenceDB 8)) twoKeys) =
      observable (sampleHashes.withKeys sampleHashes.ahash)
        (Call.run sampleHashes (TieredStore.new (ReferenceDB.empty : ReferenceDB 8))
          twoKeys).restart ↔
      ∀ hash, ShowsSame sampleHashes sampleHashes.ahash (fun _ => Row.empty) twoKeys hash) :=
  ⟨(hot_eq_cold_iff sampleHashes sampleHashes.ahash).1 _ _ 1 rfl rfl,
    (hot_eq_cold_iff sampleHashes sampleHashes.ahash).2 (ReferenceDB.empty : ReferenceDB 8) _
      rfl rfl rfl⟩

/-- A record that the columns keep whole. -/
def plain : SignedRecord := ⟨5, keyA, zeroSignature, 7⟩

/-- A record whose epoch needs 33 bits. -/
def wideEpoch : SignedRecord := ⟨4294967296, keyA, zeroSignature, 7⟩

/-- A record a judge has signed. -/
def judged : SignedRecord := ⟨5, keyA, Vector.replicate 64 1, 7⟩

/-- A fresh store that has applied one record and drained its queue. -/
def drainedStore (record : SignedRecord) : TieredStore (ReferenceDB 8) :=
  TieredStore.backgroundWrite^[1]
    ((TieredStore.new ReferenceDB.empty).applySignedRecord sampleHashes record)

/-- The record is accepted and drained, and a process with these keys reads it back
otherwise than it was read hot. -/
def ReadsOtherwise (keys : Hash32 → EntityId) (record : SignedRecord) : Prop :=
  (TieredStore.new (ReferenceDB.empty : ReferenceDB 8)).accepts sampleHashes record ∧
    CdDB.IsIdle (drainedStore record).db ∧
    (drainedStore record).getRecord sampleHashes (sampleHashes.address record.payload) ≠
      (drainedStore record).restart.getRecord (sampleHashes.withKeys keys)
        (sampleHashes.address record.payload)

/-- A record that comes back as another, or not at all, is read otherwise. -/
theorem readsOtherwise {keys : Hash32 → EntityId} {record : SignedRecord}
    (hlossy : some record ≠
      if keys (sampleHashes.address record.payload) = sampleHashes.entityId record then
        some (coldCopy record) else none) : ReadsOtherwise keys record := by
  have haccepts : (TieredStore.new (ReferenceDB.empty : ReferenceDB 8)).accepts sampleHashes
      record := rfl
  have hdrained : CdDB.IsIdle (drainedStore record).db := rfl
  refine ⟨haccepts, hdrained, ?_⟩
  rw [drainedStore] at hdrained ⊢
  rw [getRecord_hot, getRecord_cold haccepts hdrained]
  exact hlossy

/-- A process with other keys does not find a record of which the columns have lost
nothing; and one that happened to have the same keys would still lose the high half of
an epoch, and a signature. -/
theorem hot_ne_cold_of_otherKeys_of_lossy :
    ReadsOtherwise otherKeys plain ∧ ReadsOtherwise sampleHashes.ahash wideEpoch ∧
      ReadsOtherwise sampleHashes.ahash judged :=
  ⟨readsOtherwise (by decide), readsOtherwise (by decide), readsOtherwise (by decide)⟩

end ServerGo.Analysis
