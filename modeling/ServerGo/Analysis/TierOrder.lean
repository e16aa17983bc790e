/-
# Which write wins in which tier

Applying a record stores it in its hot slot and then sends its command, and
between the two steps other workers may do both. So the hot index ends on the
write that stored last and the columns end on the write that sent last, and the
two tiers agree exactly when these carry the same payload.
-/

import ServerGo.Storage.Workers

namespace ServerGo.Analysis

open ServerGo.Math ServerGo.Storage

variable {W DB : Type} [DecidableEq W] [CdDB DB] {hashes : Hashes}

/-- For each entity whose hot slot holds a record of it, the columns hold the
payload of that record. -/
def TiersAgree (hashes : Hashes) (store : TieredStore DB) : Prop :=
  ∀ entityId record, (store.hotIndex.get entityId).map CachedRecord.toSigned = some record →
    hashes.entityId record = entityId →
      ((CdDB.contents store.db).rows entityId).payload = some record.payload

/-- The record of an entity whose command an event sends. -/
def sentOf (hashes : Hashes) (entityId : EntityId) : WorkerEvent W → Option SignedRecord
  | .sendInsert _ record => if hashes.entityId record = entityId then some record else none
  | _ => none

/-- Whenever a write is the last to store its slot, the write of the same entity
that is the last to send carries the same payload. -/
def LastStoredIsLastSent (hashes : Hashes) (events : List (WorkerEvent W)) : Prop :=
  ∀ stored sent,
    latest (WorkerEvent.storedIn hashes (hotSlot (hashes.entityId stored))) events =
      some stored →
    latest (sentOf hashes (hashes.entityId stored)) events = some sent →
      sent.payload = stored.payload

/-- Every write of a run is still between its steps or has taken both. -/
theorem sent_of_stored {db : DB} {events : List (WorkerEvent W)} {state : Workers W DB}
    (hrun : Workers.run hashes (Workers.start db) events = some state) {worker : W}
    {record : SignedRecord} (hstored : .storeHot worker record ∈ events) :
    .sendInsert worker record ∈ events ∨ state.phase worker = .applying record := by
  revert hstored
  refine runSteps_induction (motive := fun events (state : Workers W DB) =>
    .storeHot worker record ∈ events →
      .sendInsert worker record ∈ events ∨ state.phase worker = .applying record) ?_ ?_ hrun
  · intro hstored
    cases hstored
  intro events before event after _ ih hstep hstored
  -- what the write has done so far, unless this is its first step
  have hsofar : event ≠ .storeHot worker record →
      .sendInsert worker record ∈ events ++ [event] ∨
        before.phase worker = .applying record := by
    intro hne
    have hearlier : .storeHot worker record ∈ events := by simpa [hne.symm] using hstored
    exact (ih hearlier).imp_left (List.mem_append_left _)
  -- a worker that takes up a call was not applying a record
  have hother : ∀ (other : W) (phase : Phase), before.phase other ≠ .applying record →
      before.phase worker = .applying record →
        Function.update before.phase other phase worker = .applying record := by
    intro other phase hbusy hphase
    rw [Function.update_of_ne, hphase]
    rintro rfl
    exact hbusy hphase
  cases event with
  | storeHot other stored =>
      obtain ⟨hidle, rfl⟩ := Workers.step_cases hstep
      by_cases hsame : WorkerEvent.storeHot other stored = .storeHot worker record
      · cases hsame
        exact Or.inr (Function.update_self ..)
      · exact (hsofar hsame).imp_right (hother other _ (by simp [hidle]))
  | sendInsert other sent =>
      obtain ⟨happlying, rfl⟩ := Workers.step_cases hstep
      rcases hsofar (by simp) with hsent | hphase
      · exact Or.inl hsent
      · by_cases hworker : other = worker
        · subst hworker
          rw [happlying] at hphase
          cases hphase
          exact Or.inl (by simp)
        · exact Or.inr ((Function.update_of_ne (Ne.symm hworker) ..).trans hphase)
  | loadHot other key =>
      obtain ⟨hidle, ⟨found, -, rfl⟩ | ⟨-, rfl⟩⟩ := Workers.step_cases hstep
      · exact hsofar (by simp)
      · exact (hsofar (by simp)).imp_right (hother other _ (by simp [hidle]))
  | readColumns other key =>
      obtain ⟨started, hreading, rfl⟩ := Workers.step_cases hstep
      exact (hsofar (by simp)).imp_right (hother other _ (by simp [hreading]))
  | writerTurn =>
      cases Workers.step_cases hstep
      exact hsofar (by simp)

section

omit [DecidableEq W]

/-- The last command of an entity among those sent is the last one sent for it. -/
theorem lastOfEntity_sent (events : List (WorkerEvent W)) (entityId : EntityId) :
    TieredStore.lastOfEntity hashes entityId (events.filterMap WorkerEvent.sent?) =
      latest (sentOf hashes entityId) events := by
  rw [TieredStore.lastOfEntity, latest_filterMap]
  apply latest_congr
  intro event _
  cases event <;> rfl

end

variable [LawfulCdDB DB]

/-- Drained, with nothing refused, the columns hold the last record sent of each
entity. -/
theorem payload_of_drained {db : DB} (hidle : CdDB.IsIdle db) {events : List (WorkerEvent W)}
    {state : Workers W DB} (hrun : Workers.run hashes (Workers.start db) events = some state)
    (haccepted : state.admitted = events.filterMap WorkerEvent.sent?)
    (hdrained : CdDB.IsIdle state.store.db) {entityId : EntityId} {sent : SignedRecord}
    (hsent : latest (sentOf hashes entityId) events = some sent) :
    ((CdDB.contents state.store.db).rows entityId).payload = some sent.payload := by
  rw [← TieredStore.settledRows_of_isIdle hdrained, Workers.settledRows_run hidle hrun, haccepted,
    lastOfEntity_sent, hsent]
  rfl

/-- **When the two tiers end on the same write.** After any interleaving of any
number of workers in which every write took both its steps, no command was
refused and the queue is drained, the columns hold the payload of the record in
the hot index if and only if, for each write that was the last to store its
slot, the last write to send for that entity carried the same payload. -/
theorem tiersAgree_iff {db : DB} (hidle : CdDB.IsIdle db) {events : List (WorkerEvent W)}
    {state : Workers W DB} (hrun : Workers.run hashes (Workers.start db) events = some state)
    (hdone : ∀ worker record, state.phase worker ≠ .applying record)
    (haccepted : state.admitted = events.filterMap WorkerEvent.sent?)
    (hdrained : CdDB.IsIdle state.store.db) :
    TiersAgree hashes state.store ↔ LastStoredIsLastSent hashes events := by
  constructor
  · intro hagree stored sent hstored hsent
    have hrow := hagree (hashes.entityId stored) stored
      ((Workers.hotRecord_run hrun _).trans hstored) rfl
    rw [payload_of_drained hidle hrun haccepted hdrained hsent] at hrow
    exact Option.some.inj hrow
  · intro horder entityId record hhot hentity
    subst hentity
    rw [Workers.hotRecord_run hrun] at hhot
    -- the write that stored the record has sent it, so its entity has a last sender
    obtain ⟨event, hmem, hevent⟩ := exists_mem_of_latest hhot
    have hsender : ∃ worker, .storeHot worker record ∈ events := by
      cases event with
      | storeHot worker stored =>
          obtain ⟨-, hstored⟩ := Option.ite_none_right_eq_some.mp hevent
          cases hstored
          exact ⟨worker, hmem⟩
      | _ => cases hevent
    obtain ⟨worker, hstored⟩ := hsender
    have hsent : .sendInsert worker record ∈ events :=
      (sent_of_stored hrun hstored).resolve_right (hdone worker record)
    cases hlast : latest (sentOf hashes (hashes.entityId record)) events with
    | none =>
        have hnone := latest_eq_none_iff.mp hlast _ hsent
        rw [sentOf, if_pos rfl] at hnone
        cases hnone
    | some sent =>
        rw [payload_of_drained hidle hrun haccepted hdrained hlast, horder record sent hhot hlast]

/-- Two workers put on one key, one after the other. -/
def uncrossed : List (WorkerEvent Bool) :=
  [.storeHot false (kvRecord sampleHashes keyA [1]),
    .sendInsert false (kvRecord sampleHashes keyA [1]),
    .storeHot true (kvRecord sampleHashes keyA [2]),
    .sendInsert true (kvRecord sampleHashes keyA [2]), .writerTurn, .writerTurn]

theorem tiersAgree_iff_uncrossed :
    ∃ state : Workers Bool (ReferenceDB 8),
      Workers.run sampleHashes (Workers.start ReferenceDB.empty) uncrossed = some state ∧
      (TiersAgree sampleHashes state.store ↔ LastStoredIsLastSent sampleHashes uncrossed) := by
  have hidle : CdDB.IsIdle (ReferenceDB.empty : ReferenceDB 8) := rfl
  refine ⟨_, rfl, tiersAgree_iff hidle rfl ?_ rfl rfl⟩
  rintro (_ | _) record hphase <;> cases hphase

/-- The same puts, with the first worker's command reaching the queue after the
second's. -/
def crossed : List (WorkerEvent Bool) :=
  [.storeHot false (kvRecord sampleHashes keyA [1]),
    .storeHot true (kvRecord sampleHashes keyA [2]),
    .sendInsert true (kvRecord sampleHashes keyA [2]),
    .sendInsert false (kvRecord sampleHashes keyA [1]), .writerTurn, .writerTurn]

/-- Crossed writes leave the second value in the hot index and the first in the
columns. -/
theorem not_tiersAgree_of_crossed :
    ∃ state : Workers Bool (ReferenceDB 8),
      Workers.run sampleHashes (Workers.start ReferenceDB.empty) crossed = some state ∧
      (∀ worker record, state.phase worker ≠ .applying record) ∧
      state.admitted = crossed.filterMap WorkerEvent.sent? ∧
      CdDB.IsIdle state.store.db ∧
      ¬TiersAgree sampleHashes state.store := by
  obtain ⟨state, hrun, hphases, haccepted, hdrained⟩ : ∃ state : Workers Bool (ReferenceDB 8),
      Workers.run sampleHashes (Workers.start ReferenceDB.empty) crossed = some state ∧
      (∀ worker, state.phase worker = .idle) ∧
      state.admitted = crossed.filterMap WorkerEvent.sent? ∧ CdDB.IsIdle state.store.db :=
    ⟨_, rfl, fun worker => by cases worker <;> rfl, rfl, rfl⟩
  refine ⟨state, hrun, fun worker record => by simp [hphases worker], haccepted, hdrained, ?_⟩
  intro hagree
  have hhot := (Workers.hotRecord_run hrun
    (sampleHashes.entityId (kvRecord sampleHashes keyA [2]))).trans
      (show latest _ crossed = some (kvRecord sampleHashes keyA [2]) by decide)
  have hrow := hagree _ _ hhot rfl
  have hidle : CdDB.IsIdle (ReferenceDB.empty : ReferenceDB 8) := rfl
  have hsent : latest (sentOf sampleHashes
      (sampleHashes.entityId (kvRecord sampleHashes keyA [2]))) crossed =
        some (kvRecord sampleHashes keyA [1]) := by decide
  rw [payload_of_drained hidle hrun haccepted hdrained hsent] at hrow
  exact absurd hrow (by decide)

end ServerGo.Analysis
