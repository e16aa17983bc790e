/-
# Processes one after the other

A process opens the partition as the one before it left it, and may be killed at
any moment. What its workers were in the middle of, its hot index and the commands
that still wait are gone then; what the writer has applied is there when the next
process opens. So of what a process has had accepted, a beginning survives.
-/

import Mathlib.Data.List.Forall2
import ServerGo.Storage.Workers

namespace ServerGo.Storage

open ServerGo.Math

namespace Workers

variable {W DB : Type} [CdDB DB]

/-- The records whose commands the writer has applied, oldest first: all that were
accepted but those whose commands wait. -/
def applied (state : Workers W DB) : List SignedRecord :=
  state.admitted.take (state.admitted.length - (CdDB.contents state.store.db).pending.length)

theorem applied_prefix (state : Workers W DB) : state.applied <+: state.admitted :=
  List.take_prefix ..

variable [DecidableEq W] [LawfulCdDB DB] {hashes : Hashes}

/-- Of the records accepted some have been applied, and the commands of the others
wait, in order. -/
structure Queued (hashes : Hashes) (recovered : EntityId → Row) (state : Workers W DB)
    (kept lost : List SignedRecord) : Prop where
  admitted : state.admitted = kept ++ lost
  pending : (CdDB.contents state.store.db).pending = lost.map (SignedRecord.toInsertFast hashes)
  rows : (CdDB.contents state.store.db).rows =
    WriteBehind.applyAll InsertFast.entityId InsertFast.row
      (kept.map (SignedRecord.toInsertFast hashes)) recovered

omit [DecidableEq W] [LawfulCdDB DB] in
theorem Queued.applied_eq {recovered : EntityId → Row} {state : Workers W DB}
    {kept lost : List SignedRecord} (hqueued : Queued hashes recovered state kept lost) :
    state.applied = kept := by
  rw [applied, hqueued.pending, List.length_map, hqueued.admitted, List.length_append,
    Nat.add_sub_cancel, List.take_left]

theorem exists_queued_run {db : DB} (hidle : CdDB.IsIdle db) {events : List (WorkerEvent W)}
    {state : Workers W DB} (hrun : run hashes (start db) events = some state) :
    ∃ kept lost, Queued hashes (CdDB.contents db).rows state kept lost := by
  refine runSteps_induction (motive := fun _ (state : Workers W DB) =>
    ∃ kept lost, Queued hashes (CdDB.contents db).rows state kept lost)
    ?_ ?_ hrun
  · exact ⟨[], [], ⟨rfl, hidle, rfl⟩⟩
  rintro events before event after - ⟨kept, lost, hqueued⟩ hstep
  cases event with
  | storeHot worker record =>
      obtain ⟨-, rfl⟩ := step_cases hstep
      exact ⟨kept, lost, hqueued.admitted, hqueued.pending, hqueued.rows⟩
  | sendInsert worker record =>
      obtain ⟨-, rfl⟩ := step_cases hstep
      have hcontents : CdDB.contents (before.store.sendInsert hashes record).db = _ :=
        TieredStore.sendInsert_contents before.store record
      by_cases haccepts : before.store.accepts hashes record = true
      · rw [if_pos haccepts] at hcontents
        refine ⟨kept, lost ++ [record], ?_, ?_, ?_⟩
        · rw [if_pos haccepts, hqueued.admitted, List.append_assoc]
        · rw [hcontents, WriteBehind.enqueue_pending, hqueued.pending, List.map_append,
            List.map_singleton]
        · rw [hcontents, WriteBehind.enqueue_rows, hqueued.rows]
      · rw [if_neg haccepts] at hcontents
        refine ⟨kept, lost, ?_, ?_, ?_⟩
        · rw [if_neg haccepts, hqueued.admitted]
        · rw [hcontents, hqueued.pending]
        · rw [hcontents, hqueued.rows]
  | loadHot worker key =>
      obtain ⟨-, ⟨record, -, rfl⟩ | ⟨-, rfl⟩⟩ := step_cases hstep <;>
        exact ⟨kept, lost, hqueued.admitted, hqueued.pending, hqueued.rows⟩
  | readColumns worker key =>
      obtain ⟨started, -, rfl⟩ := step_cases hstep
      exact ⟨kept, lost, hqueued.admitted, hqueued.pending, hqueued.rows⟩
  | writerTurn =>
      cases step_cases hstep
      have hcontents := TieredStore.backgroundWrite_contents before.store
      cases lost with
      | nil =>
          rw [WriteBehind.writeOne_of_pending_eq_nil hqueued.pending] at hcontents
          exact ⟨kept, [], hqueued.admitted, by rw [hcontents, hqueued.pending],
            by rw [hcontents, hqueued.rows]⟩
      | cons oldest rest =>
          rw [WriteBehind.writeOne_of_pending_eq_cons hqueued.pending] at hcontents
          refine ⟨kept ++ [oldest], rest, ?_, by rw [hcontents], ?_⟩
          · rw [List.append_assoc]
            exact hqueued.admitted
          · rw [hcontents, List.map_append, List.map_singleton, WriteBehind.applyAll_concat,
              ← hqueued.rows]

/-- **The columns are what the applied records make of the recovered ones.** -/
theorem rows_run {db : DB} (hidle : CdDB.IsIdle db) {events : List (WorkerEvent W)}
    {state : Workers W DB} (hrun : run hashes (start db) events = some state) :
    (CdDB.contents state.store.db).rows =
      WriteBehind.applyAll InsertFast.entityId InsertFast.row
        (state.applied.map (SignedRecord.toInsertFast hashes)) (CdDB.contents db).rows := by
  obtain ⟨kept, lost, hqueued⟩ := exists_queued_run hidle hrun
  rw [hqueued.applied_eq, hqueued.rows]

/-- Whatever is accepted was stored in its slot before. -/
theorem stored_of_admitted {db : DB} (hidle : CdDB.IsIdle db) {events : List (WorkerEvent W)}
    {state : Workers W DB} (hrun : run hashes (start db) events = some state)
    {record : SignedRecord} (hmem : record ∈ state.admitted) : Stored events record := by
  revert hmem
  refine runSteps_induction (motive := fun events (state : Workers W DB) =>
    record ∈ state.admitted → Stored events record) ?_ ?_ hrun
  · intro hmem
    cases hmem
  intro events before event after hbefore ih hstep hmem
  have hold : record ∈ before.admitted → Stored (events ++ [event]) record := fun hearlier =>
    (ih hearlier).concat event
  cases event with
  | storeHot worker stored =>
      obtain ⟨-, rfl⟩ := step_cases hstep
      exact hold hmem
  | sendInsert worker sent =>
      obtain ⟨hphase, rfl⟩ := step_cases hstep
      have hmem : record ∈ if before.store.accepts hashes sent then before.admitted ++ [sent]
        else before.admitted := hmem
      split at hmem
      · rcases List.mem_append.mp hmem with hearlier | hnew
        · exact hold hearlier
        · cases List.mem_singleton.mp hnew
          exact ((provenance_run hidle hbefore).applying worker record hphase).concat _
      · exact hold hmem
  | loadHot worker key =>
      obtain ⟨-, ⟨found, -, rfl⟩ | ⟨-, rfl⟩⟩ := step_cases hstep <;> exact hold hmem
  | readColumns worker key =>
      obtain ⟨started, -, rfl⟩ := step_cases hstep
      exact hold hmem
  | writerTurn =>
      cases step_cases hstep
      exact hold hmem

end Workers

/-! ## Many processes -/

/-- A process: the keys its `AHasher` draws, and what happens until it is killed. -/
structure Life (W : Type) where
  ahash : Hash32 → EntityId
  events : List (WorkerEvent W)

/-- Where a row of processes has come to: the data the next one will open, and what
each has had accepted and applied. -/
structure Lives (DB : Type) where
  db : DB
  /-- The commands of each process that were accepted. -/
  admitted : List (List InsertFast)
  /-- The commands of each process that were applied. -/
  applied : List (List InsertFast)

namespace Lives

variable {W DB : Type} [DecidableEq W] [CdDB DB] (hashes : Hashes)

/-- No process has run yet. -/
def start (db : DB) : Lives DB := ⟨db, [], []⟩

/-- A process files its records under its own keys, and is killed. -/
def step (lives : Lives DB) (life : Life W) : Option (Lives DB) :=
  let hashes := hashes.withKeys life.ahash
  (Workers.run hashes (Workers.start lives.db) life.events).map fun state => {
    db := CdDB.reopen state.store.db
    admitted := lives.admitted ++ [state.admitted.map (SignedRecord.toInsertFast hashes)]
    applied := lives.applied ++ [state.applied.map (SignedRecord.toInsertFast hashes)] }

/-- The processes one after the other, when the events of each were possible. -/
abbrev run (start : Lives DB) (processes : List (Life W)) : Option (Lives DB) :=
  runSteps (step hashes) start processes

variable [LawfulCdDB DB] {hashes} {db : DB} {lives : Lives DB} {processes : List (Life W)}

/-- The next process finds nothing waiting, and the columns as the commands applied in
all lives before have left them. -/
theorem contents_run (hidle : CdDB.IsIdle db)
    (hrun : run hashes (start db) processes = some lives) :
    CdDB.IsIdle lives.db ∧ (CdDB.contents lives.db).rows =
      WriteBehind.applyAll InsertFast.entityId InsertFast.row lives.applied.flatten
        (CdDB.contents db).rows := by
  refine runSteps_induction (motive := fun _ (lives : Lives DB) =>
    CdDB.IsIdle lives.db ∧ (CdDB.contents lives.db).rows =
      WriteBehind.applyAll InsertFast.entityId InsertFast.row lives.applied.flatten
        (CdDB.contents db).rows)
    ⟨hidle, rfl⟩ ?_ hrun
  rintro earlier before life after - ⟨hbefore, hrows⟩ hstep
  obtain ⟨state, hlife, rfl⟩ := Option.map_eq_some_iff.mp hstep
  have hreopen := LawfulCdDB.contents_reopen state.store.db
  refine ⟨by rw [CdDB.IsIdle, hreopen], ?_⟩
  calc (CdDB.contents (CdDB.reopen state.store.db)).rows
      = (CdDB.contents state.store.db).rows := by rw [hreopen]
    _ = WriteBehind.applyAll InsertFast.entityId InsertFast.row
          (state.applied.map (SignedRecord.toInsertFast (hashes.withKeys life.ahash)))
            (CdDB.contents before.db).rows := Workers.rows_run hbefore hlife
    _ = _ := by
        rw [hrows, List.flatten_append, List.flatten_singleton, WriteBehind.applyAll,
          WriteBehind.applyAll, WriteBehind.applyAll, ← List.foldl_append]

omit [LawfulCdDB DB] in
/-- Of what each process had accepted, a beginning was applied. -/
theorem applied_prefix_run (hrun : run hashes (start db) processes = some lives) :
    List.Forall₂ (· <+: ·) lives.applied lives.admitted := by
  refine runSteps_induction (motive := fun _ (lives : Lives DB) =>
    List.Forall₂ (· <+: ·) lives.applied lives.admitted) .nil ?_ hrun
  intro earlier before life after _ ih hstep
  obtain ⟨state, -, rfl⟩ := Option.map_eq_some_iff.mp hstep
  exact List.rel_append ih (.cons (state.applied_prefix.map _) .nil)

/-- Whatever was applied, some process stored, and filed under the keys it had. -/
theorem stored_of_applied (hidle : CdDB.IsIdle db)
    (hrun : run hashes (start db) processes = some lives) {command : InsertFast}
    (hmem : command ∈ lives.applied.flatten) :
    ∃ life ∈ processes, ∃ record, Workers.Stored life.events record ∧
      command = record.toInsertFast (hashes.withKeys life.ahash) := by
  revert hmem
  refine runSteps_induction (motive := fun processes (lives : Lives DB) =>
    run hashes (start db) processes = some lives → command ∈ lives.applied.flatten →
      ∃ life ∈ processes, ∃ record, Workers.Stored life.events record ∧
        command = record.toInsertFast (hashes.withKeys life.ahash)) ?_ ?_ hrun hrun
  · intro _ hmem
    cases hmem
  intro earlier before life after hbefore ih hstep _ hmem
  obtain ⟨state, hlife, rfl⟩ := Option.map_eq_some_iff.mp hstep
  rw [List.flatten_append, List.flatten_singleton] at hmem
  rcases List.mem_append.mp hmem with hold | hnew
  · obtain ⟨past, hpast, hstored⟩ := ih hbefore hold
    exact ⟨past, List.mem_append_left _ hpast, hstored⟩
  · obtain ⟨record, hrecord, rfl⟩ := List.mem_map.mp hnew
    refine ⟨life, List.mem_append_right _ (List.mem_singleton_self _), record, ?_, rfl⟩
    exact Workers.stored_of_admitted (contents_run hidle hbefore).1 hlife
      (state.applied_prefix.subset hrecord)

end Lives

end ServerGo.Storage
