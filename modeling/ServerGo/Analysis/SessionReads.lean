/-
# A session read at three moments

A get that finds its slot empty reads the three columns of the entity one after the
other, and the writer may apply commands in between, so that payload and type may be
of different records. Where all records of the entity are of one type, as those of
puts are, this makes no difference to the client: the answer is that of a get made at
once, at some moment before the payload was read.
-/

import ServerGo.Analysis.AtomicReads

namespace ServerGo.Analysis

open ServerGo.Math ServerGo.Storage

variable {W DB : Type} [DecidableEq W] [CdDB DB] {hashes : Hashes} {db : DB}
  {events : List (WorkerEvent W)} {state : Workers W DB}

/-- The cold path of `get_record`, with the store as it is at each of the three reads. -/
def sessionReadAt (payloadStore epochStore typeStore : TieredStore DB) (entityId : EntityId) :
    Option SignedRecord :=
  Row.toSigned {
    payload := ((CdDB.contents payloadStore.db).rows entityId).payload
    epoch := ((CdDB.contents epochStore.db).rows entityId).epoch
    type := ((CdDB.contents typeStore.db).rows entityId).type }

omit [DecidableEq W] in
/-- Made at one moment it is the cold path. -/
theorem sessionReadAt_self (hashes : Hashes) (store : TieredStore DB) (hash : Hash32) :
    sessionReadAt store store store (hashes.ahash hash) = store.readColumns hashes hash := rfl

/-- All records of an entity, stored in the run or recovered, are of one type. -/
def OneType (hashes : Hashes) (db : DB) (events : List (WorkerEvent W)) (entityId : EntityId)
    (recordType : UInt32) : Prop :=
  (∀ worker record, .storeHot worker record ∈ events → hashes.entityId record = entityId →
    record.recordType = recordType) ∧
  (((CdDB.contents db).rows entityId).payload.isSome →
    ((CdDB.contents db).rows entityId).type = some recordType)

variable [LawfulCdDB DB]

/-- Once an entity has a payload it keeps one. -/
theorem payload_isSome_of_run {later : List (WorkerEvent W)} {after : Workers W DB}
    (hrun : Workers.run hashes state later = some after) {entityId : EntityId}
    (hpayload : ((CdDB.contents state.store.db).rows entityId).payload.isSome) :
    ((CdDB.contents after.store.db).rows entityId).payload.isSome := by
  refine runSteps_induction (motive := fun _ (after : Workers W DB) =>
    ((CdDB.contents after.store.db).rows entityId).payload.isSome) hpayload ?_ hrun
  intro events before event next _ ih hstep
  cases event with
  | storeHot worker record =>
      obtain ⟨-, rfl⟩ := Workers.step_cases hstep
      exact ih
  | sendInsert worker record =>
      obtain ⟨-, rfl⟩ := Workers.step_cases hstep
      dsimp only
      rw [TieredStore.sendInsert_contents]
      split <;> exact ih
  | loadHot worker key =>
      obtain ⟨-, ⟨record, -, rfl⟩ | ⟨-, rfl⟩⟩ := Workers.step_cases hstep <;> exact ih
  | readColumns worker key =>
      obtain ⟨started, -, rfl⟩ := Workers.step_cases hstep
      exact ih
  | writerTurn =>
      cases Workers.step_cases hstep
      dsimp only
      rw [TieredStore.backgroundWrite_contents]
      rcases WriteBehind.writeOne_rows InsertFast.entityId InsertFast.row
        (CdDB.contents before.store.db) entityId with hsame | ⟨command, -, -, hrow⟩
      · rw [hsame]
        exact ih
      · rw [hrow]
        rfl

/-- Where there is a payload, the type is the one all records of the entity have. -/
theorem OneType.type_eq (hidle : CdDB.IsIdle db)
    (hrun : Workers.run hashes (Workers.start db) events = some state) {entityId : EntityId}
    {recordType : UInt32} (hone : OneType hashes db events entityId recordType)
    (hpayload : ((CdDB.contents state.store.db).rows entityId).payload.isSome) :
    ((CdDB.contents state.store.db).rows entityId).type = some recordType := by
  rcases (Workers.provenance_run hidle hrun).rows entityId with
    hsame | ⟨record, ⟨worker, hmem⟩, hentity, hrow⟩
  · rw [hsame] at hpayload ⊢
    exact hone.2 hpayload
  · rw [hrow]
    exact congrArg some (hone.1 worker record hmem hentity)

/-- **Three reads are as good as one.** In any run, a get that has found its slot empty
and reads the payload of its entity at one later moment, the type at another after
that, and the epoch whenever, answers what a get made at once would have answered at
some moment between its load and its first read, as long as all records of the entity
are of one type. -/
theorem session_read_atomic (hidle : CdDB.IsIdle db) {worker : W} {key : Bytes} {started : Nat}
    (hmiss : IsMiss hashes events worker key started) {recordType : UInt32}
    (hone : OneType hashes db events (hashes.ahash (hashes.sha256 key)) recordType)
    {first last : Nat} (hstarted : started < first) (hlast : first ≤ last)
    {payloadState typeState : Workers W DB} (epochStore : TieredStore DB)
    (hpayload : Workers.run hashes (Workers.start db) (events.take first) = some payloadState)
    (htype : Workers.run hashes (Workers.start db) (events.take last) = some typeState) :
    ∃ moment between, started ≤ moment ∧ moment ≤ first ∧
      Workers.run hashes (Workers.start db) (events.take moment) = some between ∧
        (sessionReadAt payloadState.store epochStore typeState.store
          (hashes.ahash (hashes.sha256 key))).map SignedRecord.value =
            L2Executor.get hashes between.store key := by
  -- made at the first of these moments the read would be atomic
  have hmissThen : IsMiss hashes (events.take first) worker key started := by
    refine ⟨?_, ?_⟩
    · rw [List.getElem?_take_of_lt hstarted]
      exact hmiss.1
    · rw [List.take_take, min_eq_left hstarted.le]
      exact hmiss.2
  obtain ⟨moment, between, hafter, hbefore, hbetween, hget⟩ :=
    exists_answeredAt_of_miss hidle hpayload hmissThen
  rw [List.length_take] at hbefore
  rw [List.take_take, min_eq_left (by omega)] at hbetween
  refine ⟨moment, between, hafter.le, by omega, hbetween, ?_⟩
  rw [← hget, ← sessionReadAt_self, sessionReadAt, sessionReadAt]
  have honeTake : ∀ count, OneType hashes db (events.take count)
      (hashes.ahash (hashes.sha256 key)) recordType := fun count =>
    ⟨fun other record hmem => hone.1 other record (List.mem_of_mem_take hmem), hone.2⟩
  cases hread : ((CdDB.contents payloadState.store.db).rows
      (hashes.ahash (hashes.sha256 key))).payload with
  | none => rfl
  | some payload =>
      -- the payload is there from now on, and so the type is the one of all records
      have hthen : ((CdDB.contents payloadState.store.db).rows
          (hashes.ahash (hashes.sha256 key))).payload.isSome := by
        rw [hread]
        rfl
      obtain ⟨later, hlater⟩ :=
        exists_later_of_prefix htype (List.take_prefix_take_left hlast) hpayload
      have hnow := payload_isSome_of_run hlater hthen
      rw [(honeTake last).type_eq hidle htype hnow,
        (honeTake first).type_eq hidle hpayload hthen]
      rfl

/-- The payload of one put and the type of the next, read by the overtaken get. -/
theorem session_read_atomic_overtaken :
    ∃ payloadState typeState between : Workers (Fin 3) (ReferenceDB 8), ∃ moment ≤ 6,
      Workers.run sampleHashes (Workers.start ReferenceDB.empty) (overtaken.take 6) =
        some payloadState ∧
      Workers.run sampleHashes (Workers.start ReferenceDB.empty) (overtaken.take 7) =
        some typeState ∧
      Workers.run sampleHashes (Workers.start ReferenceDB.empty) (overtaken.take moment) =
        some between ∧
      (sessionReadAt payloadState.store payloadState.store typeState.store
        (sampleHashes.ahash (sampleHashes.sha256 keyA))).map SignedRecord.value =
          L2Executor.get sampleHashes between.store keyA := by
  obtain ⟨state, hrun, -⟩ := Option.map_eq_some_iff.mp answers_overtaken
  obtain ⟨payloadState, hpayload, -⟩ := exists_runSteps_take hrun 6
  obtain ⟨typeState, htype, -⟩ := exists_runSteps_take hrun 7
  have hidle : CdDB.IsIdle (ReferenceDB.empty : ReferenceDB 8) := rfl
  have hmiss : IsMiss sampleHashes overtaken 0 keyA 0 := ⟨rfl, rfl⟩
  have hone : OneType sampleHashes (ReferenceDB.empty : ReferenceDB 8) overtaken
      (sampleHashes.ahash (sampleHashes.sha256 keyA)) kvType := by
    refine ⟨fun worker record hmem _ => ?_, fun hpayload => absurd hpayload Bool.false_ne_true⟩
    simp only [overtaken, List.mem_cons, WorkerEvent.storeHot.injEq, reduceCtorEq, false_or,
      or_false, List.not_mem_nil] at hmem
    rcases hmem with ⟨-, rfl⟩ | ⟨-, rfl⟩ <;> rfl
  have hstarted : 0 < 6 := by decide
  have hlast : 6 ≤ 7 := by decide
  obtain ⟨moment, between, -, hmoment, hbetween, hget⟩ :=
    session_read_atomic hidle hmiss hone hstarted hlast payloadState.store hpayload htype
  exact ⟨payloadState, typeState, between, moment, hmoment, hpayload, htype, hbetween, hget⟩

end ServerGo.Analysis
