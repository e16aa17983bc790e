/-
# Queries by epoch

`get_by_epoch` compares the epoch column, which is 32 bits wide, with a 64-bit
epoch. Once everything has been written, it returns one record for each address
whose last record has the epoch asked for, unless a last record has an epoch that
does not fit its column: that record is not found under its own epoch, and is
found under what is left of it.
-/

import ServerGo.Storage.Queries

namespace ServerGo.Analysis

open ServerGo.Math ServerGo.Storage

/-- The last record at an address. -/
def lastAtAddress (hashes : Hashes) (hash : Hash32) (records : List SignedRecord) :
    Option SignedRecord :=
  latest (fun record => if hashes.address record.payload = hash then some record else none) records

/-- What a query is to return of a record. -/
def SignedRecord.content (record : SignedRecord) : Bytes × UInt32 :=
  (record.payload, record.recordType)

/-- A query for an epoch is answered exactly: at every address by the content of
the last record there, once, if that has the epoch, and else by nothing. -/
def AnswersEpoch {DB : Type} [CdDB DB] [EntityIndex DB] (hashes : Hashes) (store : TieredStore DB)
    (records : List SignedRecord) (epochId : EpochId) : Prop :=
  ∀ hash, ((store.getByEpoch epochId).filter fun record =>
      hashes.address record.payload = hash).map SignedRecord.content =
    ((lastAtAddress hashes hash records).filter fun record =>
      record.epochId = epochId).toList.map SignedRecord.content

/-- No last record has an epoch that is too wide for its column and is the epoch
asked for, or leaves it. -/
def EpochsFit (hashes : Hashes) (records : List SignedRecord) (epochId : EpochId) : Prop :=
  ∀ hash record, lastAtAddress hashes hash records = some record →
    2 ^ 32 ≤ record.epochId.toNat →
      record.epochId ≠ epochId ∧ record.epochId.toNat % 2 ^ 32 ≠ epochId.toNat

/-- What the query reads out of the row of an applied record. -/
theorem toSignedOfEpoch_row (hashes : Hashes) (record : SignedRecord) (epochId : EpochId) :
    (record.toInsertFast hashes).row.toSignedOfEpoch epochId =
      if record.epochId.toUInt32.toUInt64 = epochId then
        some ⟨epochId, record.payload, zeroSignature, record.recordType⟩
      else none := rfl

/-- The query keeps the payload of a record, and so the address it is filed
under. -/
theorem toSignedOfEpoch_filter (hashes : Hashes) (epochId : EpochId) (hash : Hash32)
    (last : Option SignedRecord) :
    (((last.map fun record => (record.toInsertFast hashes).row).getD Row.empty).toSignedOfEpoch
        epochId).filter (fun record => hashes.address record.payload = hash) =
      (last.filter fun record => hashes.address record.payload = hash).bind
        fun record => (record.toInsertFast hashes).row.toSignedOfEpoch epochId := by
  cases last with
  | none => rfl
  | some record =>
      rw [Option.map_some, Option.getD_some, Option.filter_some]
      by_cases haddress : hashes.address record.payload = hash
      · rw [if_pos (by simpa using haddress), Option.bind_some, toSignedOfEpoch_row]
        split
        · rw [Option.filter_some, if_pos (by simpa using haddress)]
        · rfl
      · rw [if_neg (by simpa using haddress), Option.bind_none, toSignedOfEpoch_row]
        split
        · rw [Option.filter_some, if_neg (by simpa using haddress)]
        · rfl

/-- A cast to 32 bits and back agrees with an epoch as the epoch itself does
exactly when the epoch fits, or neither is the one asked for. -/
theorem narrowed_eq_iff (held asked : EpochId) :
    (held.toUInt32.toUInt64 = asked ↔ held = asked) ↔
      (2 ^ 32 ≤ held.toNat → held ≠ asked ∧ held.toNat % 2 ^ 32 ≠ asked.toNat) := by
  have hnarrowed : held.toUInt32.toUInt64.toNat = held.toNat % 2 ^ 32 := by simp
  rw [← UInt64.toNat_inj, ← UInt64.toNat_inj, hnarrowed, ne_eq, ← UInt64.toNat_inj]
  omega

/-- When only one element can be read, reading a list without repetition is
reading that element. -/
theorem filterMap_eq_toList {α β : Type} {read : α → Option β} {elements : List α}
    (hnodup : elements.Nodup) {only : α} (honly : ∀ element, read element ≠ none → element = only)
    (hlisted : read only ≠ none → only ∈ elements) :
    elements.filterMap read = (read only).toList := by
  by_cases hread : read only = none
  · rw [hread, Option.toList_none, List.filterMap_eq_nil_iff]
    intro element _
    by_contra hsome
    exact hsome (honly element hsome ▸ hread)
  · obtain ⟨before, after, rfl⟩ := List.append_of_mem (hlisted hread)
    have hothers : ∀ element ∈ before ++ after, read element = none := by
      intro element hmem
      by_contra hsome
      have hdisjoint := (List.nodup_middle.mp hnodup).notMem
      exact hdisjoint (honly element hsome ▸ hmem)
    have hbefore : before.filterMap read = [] := List.filterMap_eq_nil_iff.mpr fun element hmem =>
      hothers element (List.mem_append_left _ hmem)
    have hafter : after.filterMap read = [] := List.filterMap_eq_nil_iff.mpr fun element hmem =>
      hothers element (List.mem_append_right _ hmem)
    rw [List.filterMap_append, hbefore, List.nil_append, List.filterMap_cons, hafter]
    cases read only <;> rfl

variable {hashes : Hashes} {DB : Type} [CdDB DB] [LawfulCdDB DB]

/-- An entity is written under one address, so the last record of the entity of
an address is the last record at that address, if there is one there. -/
theorem lastOfEntity_address {records : List SignedRecord}
    (hdistinct : ∀ first ∈ records, ∀ second ∈ records,
      hashes.entityId first = hashes.entityId second →
        hashes.address first.payload = hashes.address second.payload) (hash : Hash32) :
    (TieredStore.lastOfEntity hashes (hashes.ahash hash) records).filter
        (fun record => hashes.address record.payload = hash) =
      lastAtAddress hashes hash records := by
  cases hlast : lastAtAddress hashes hash records with
  | none =>
      rw [lastAtAddress, latest_eq_none_iff] at hlast
      rw [Option.filter_eq_none_iff]
      intro record hrecord
      obtain ⟨found, hmem, hfound⟩ := exists_mem_of_latest hrecord
      obtain ⟨-, hsame⟩ := Option.ite_none_right_eq_some.mp hfound
      cases hsame
      simpa using hlast record hmem
  | some record =>
      obtain ⟨found, hmem, hfound⟩ := exists_mem_of_latest hlast
      obtain ⟨hfiled, hsame⟩ := Option.ite_none_right_eq_some.mp hfound
      cases hsame
      have hagree : ∀ other ∈ records,
          hashes.entityId other = hashes.ahash hash ↔ hashes.address other.payload = hash := by
        intro other hother
        constructor
        · intro hentity
          have hsame : hashes.entityId other = hashes.entityId record := by
            rw [hentity, Hashes.entityId, hfiled]
          exact (hdistinct other hother record hmem hsame).trans hfiled
        · intro haddress
          rw [Hashes.entityId, haddress]
      have hreading : TieredStore.lastOfEntity hashes (hashes.ahash hash) records =
          lastAtAddress hashes hash records :=
        latest_congr fun other hother => by simp only [hagree other hother]
      rw [hreading, hlast, Option.filter_some, if_pos (by simpa using hfiled)]

/-- After such a run a query returns at an address what it makes of the row of
the last record there. -/
theorem getByEpoch_filter [EntityIndex DB] [LawfulEntityIndex DB] {db : DB}
    (hfresh : CdDB.IsFresh db) {calls : List Call}
    (haccepted : TieredStore.accepted hashes (TieredStore.new db) calls =
      calls.filterMap (Call.record? hashes))
    (hdrained : CdDB.IsIdle (Call.run hashes (TieredStore.new db) calls).db)
    (hdistinct : ∀ first ∈ calls.filterMap (Call.record? hashes),
      ∀ second ∈ calls.filterMap (Call.record? hashes),
        hashes.entityId first = hashes.entityId second →
          hashes.address first.payload = hashes.address second.payload)
    (epochId : EpochId) (hash : Hash32) :
    ((Call.run hashes (TieredStore.new db) calls).getByEpoch epochId).filter
        (fun record => hashes.address record.payload = hash) =
      ((lastAtAddress hashes hash (calls.filterMap (Call.record? hashes))).bind fun record =>
        (record.toInsertFast hashes).row.toSignedOfEpoch epochId).toList := by
  let atHash := fun record : SignedRecord => decide (hashes.address record.payload = hash)
  have hread : ∀ entityId,
      (((CdDB.contents (Call.run hashes (TieredStore.new db) calls).db).rows entityId
        ).toSignedOfEpoch epochId).filter atHash =
      ((TieredStore.lastOfEntity hashes entityId
        (calls.filterMap (Call.record? hashes))).filter atHash).bind
          fun record => (record.toInsertFast hashes).row.toSignedOfEpoch epochId := by
    intro entityId
    rw [TieredStore.rows_of_drained hfresh haccepted hdrained]
    exact toSignedOfEpoch_filter ..
  -- only the entity of this address can hold a record that is filed there
  have honly : ∀ entityId, (TieredStore.lastOfEntity hashes entityId
      (calls.filterMap (Call.record? hashes))).filter atHash ≠ none →
        entityId = hashes.ahash hash ∧
        (CdDB.contents (Call.run hashes (TieredStore.new db) calls).db).rows entityId ≠
          Row.empty := by
    intro entityId hsome
    obtain ⟨record, hrecord⟩ := Option.ne_none_iff_exists'.mp hsome
    obtain ⟨hlast, haddress⟩ := Option.filter_eq_some_iff.mp hrecord
    obtain ⟨found, -, hfound⟩ := exists_mem_of_latest hlast
    obtain ⟨hentity, hsame⟩ := Option.ite_none_right_eq_some.mp hfound
    cases hsame
    constructor
    · rw [← hentity, Hashes.entityId, of_decide_eq_true haddress]
    · rw [TieredStore.rows_of_drained hfresh haccepted hdrained, hlast]
      simp [InsertFast.row, Row.empty]
  rw [TieredStore.getByEpoch, List.filter_filterMap, ← lastOfEntity_address hdistinct]
  refine (List.filterMap_congr fun entityId _ => hread entityId).trans ?_
  refine filterMap_eq_toList (LawfulEntityIndex.nodup _) ?_ ?_
  · exact fun entityId hsome => (honly entityId fun hnone => hsome (by rw [hnone]; rfl)).1
  · exact fun hsome => LawfulEntityIndex.mem_of_row _ _
      (honly _ fun hnone => hsome (by rw [hnone]; rfl)).2

/-- **When a query by epoch is exact.** After a run from a fresh partition whose
commands were all accepted and applied, on addresses with distinct entities, the
query for an epoch returns one record for each address whose last record has that
epoch, and nothing else, if and only if no last record whose epoch needs more
than 32 bits has the epoch asked for or is left with it. -/
theorem answersEpoch_iff [EntityIndex DB] [LawfulEntityIndex DB] {db : DB}
    (hfresh : CdDB.IsFresh db) {calls : List Call}
    (haccepted : TieredStore.accepted hashes (TieredStore.new db) calls =
      calls.filterMap (Call.record? hashes))
    (hdrained : CdDB.IsIdle (Call.run hashes (TieredStore.new db) calls).db)
    (hdistinct : ∀ first ∈ calls.filterMap (Call.record? hashes),
      ∀ second ∈ calls.filterMap (Call.record? hashes),
        hashes.entityId first = hashes.entityId second →
          hashes.address first.payload = hashes.address second.payload)
    (epochId : EpochId) :
    AnswersEpoch hashes (Call.run hashes (TieredStore.new db) calls)
        (calls.filterMap (Call.record? hashes)) epochId ↔
      EpochsFit hashes (calls.filterMap (Call.record? hashes)) epochId := by
  refine forall_congr' fun hash => ?_
  rw [getByEpoch_filter hfresh haccepted hdrained hdistinct]
  cases lastAtAddress hashes hash (calls.filterMap (Call.record? hashes)) with
  | none => simp
  | some record =>
      have hcontent : (((some record).bind fun record =>
          (record.toInsertFast hashes).row.toSignedOfEpoch epochId).toList.map
            SignedRecord.content =
          ((some record).filter fun record => record.epochId = epochId).toList.map
            SignedRecord.content) ↔
          (record.epochId.toUInt32.toUInt64 = epochId ↔ record.epochId = epochId) := by
        simp only [Option.bind_some, toSignedOfEpoch_row, Option.filter_some, decide_eq_true_eq]
        generalize record.epochId.toUInt32.toUInt64 = narrowed
        by_cases hnarrowed : narrowed = epochId <;> by_cases hepoch : record.epochId = epochId <;>
          simp [hnarrowed, hepoch, SignedRecord.content]
      rw [hcontent, narrowed_eq_iff]
      simp

/-- The record of a put, at an epoch. -/
def atEpoch (epochId : EpochId) (key val : Bytes) : SignedRecord :=
  { kvRecord sampleHashes key val with epochId := epochId }

/-- One of two keys put at an epoch is put again at the next. -/
def movedOn : List Call :=
  [.apply (atEpoch 42 keyA [1]), .apply (atEpoch 42 keyB [2]), .writerTurn,
    .apply (atEpoch 43 keyA [3]), .writerTurn, .writerTurn]

/-- The overwritten key has left the one epoch for the other. -/
theorem answersEpoch_iff_movedOn :
    ∃ store : TieredStore (IndexedDB 8),
      store = Call.run sampleHashes (TieredStore.new IndexedDB.empty) movedOn ∧
      AnswersEpoch sampleHashes store (movedOn.filterMap (Call.record? sampleHashes)) 42 ∧
      AnswersEpoch sampleHashes store (movedOn.filterMap (Call.record? sampleHashes)) 43 ∧
      store.getByEpoch 42 = [atEpoch 42 keyB [2]] ∧
      store.getByEpoch 43 = [atEpoch 43 keyA [3]] := by
  have hfit : ∀ epochId,
      EpochsFit sampleHashes (movedOn.filterMap (Call.record? sampleHashes)) epochId := by
    intro epochId hash record hlast hwide
    have hnarrow : ∀ record ∈ movedOn.filterMap (Call.record? sampleHashes),
        record.epochId.toNat < 2 ^ 32 := by decide
    obtain ⟨found, hmem, hfound⟩ := exists_mem_of_latest hlast
    obtain ⟨-, hsame⟩ := Option.ite_none_right_eq_some.mp hfound
    cases hsame
    exact absurd (hnarrow record hmem) (by omega)
  have hfresh : CdDB.IsFresh (IndexedDB.empty : IndexedDB 8) := rfl
  have hexact : ∀ epochId, AnswersEpoch sampleHashes
      (Call.run sampleHashes (TieredStore.new (IndexedDB.empty : IndexedDB 8)) movedOn)
      (movedOn.filterMap (Call.record? sampleHashes)) epochId := fun epochId =>
    (answersEpoch_iff hfresh (by rfl) (by rfl) (by decide) epochId).mpr (hfit epochId)
  exact ⟨_, rfl, hexact 42, hexact 43, rfl, rfl⟩

/-- A store that has applied a record of the given epoch and drained its queue.
-/
def appliedAtEpoch (epochId : EpochId) : List Call :=
  [.apply ⟨epochId, keyA, zeroSignature, 7⟩, .writerTurn]

/-- A record of epoch 4294967301 is returned for epoch 5, and not for its own. -/
theorem not_answersEpoch_of_wideEpoch :
    TieredStore.accepted sampleHashes (TieredStore.new (IndexedDB.empty : IndexedDB 8))
        (appliedAtEpoch 4294967301) =
      (appliedAtEpoch 4294967301).filterMap (Call.record? sampleHashes) ∧
    CdDB.IsIdle (Call.run sampleHashes (TieredStore.new (IndexedDB.empty : IndexedDB 8))
      (appliedAtEpoch 4294967301)).db ∧
    ¬AnswersEpoch sampleHashes
      (Call.run sampleHashes (TieredStore.new (IndexedDB.empty : IndexedDB 8))
        (appliedAtEpoch 4294967301))
      ((appliedAtEpoch 4294967301).filterMap (Call.record? sampleHashes)) 4294967301 ∧
    ¬AnswersEpoch sampleHashes
      (Call.run sampleHashes (TieredStore.new (IndexedDB.empty : IndexedDB 8))
        (appliedAtEpoch 4294967301))
      ((appliedAtEpoch 4294967301).filterMap (Call.record? sampleHashes)) 5 := by
  have hown : (Call.run sampleHashes (TieredStore.new (IndexedDB.empty : IndexedDB 8))
      (appliedAtEpoch 4294967301)).getByEpoch 4294967301 = [] := rfl
  have hother : (Call.run sampleHashes (TieredStore.new (IndexedDB.empty : IndexedDB 8))
      (appliedAtEpoch 4294967301)).getByEpoch 5 = [⟨5, keyA, zeroSignature, 7⟩] := rfl
  refine ⟨rfl, rfl, fun hanswer => ?_, fun hanswer => ?_⟩
  · have hkey := hanswer (sampleHashes.sha256 keyA)
    rw [hown] at hkey
    revert hkey
    decide
  · have hkey := hanswer (sampleHashes.sha256 keyA)
    rw [hother] at hkey
    revert hkey
    decide

end ServerGo.Analysis
