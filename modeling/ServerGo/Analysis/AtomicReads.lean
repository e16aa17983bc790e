/-
# Gets are atomic

A get of the tiered store is two steps when its slot is empty, and anything may
happen between them. It still answers what `L2Executor::get` would answer at once,
on the store as it was at some moment while it was under way. This holds of all
keys, those that share a hot slot included, on any recovered data and whatever the
queue refuses.
-/

import ServerGo.Analysis.Linearizable

namespace ServerGo.Analysis

open ServerGo.Math ServerGo.Storage

variable {W DB : Type} [DecidableEq W] [CdDB DB] {hashes : Hashes} {db : DB}
  {events : List (WorkerEvent W)} {state : Workers W DB}

/-- What an answer would have been had the get been made at once, after so many
events of the trace. -/
def AnsweredAt (hashes : Hashes) (db : DB) (events : List (WorkerEvent W)) (moment : Nat)
    (answer : Answer W) : Prop :=
  ∃ between, Workers.run hashes (Workers.start db) (events.take moment) = some between ∧
    answer.value = L2Executor.get hashes between.store answer.key

/-- The answer of a get is that of one made at once at some moment between its first
step and its last. -/
def IsAtomic (hashes : Hashes) (db : DB) (events : List (WorkerEvent W)) (answer : Answer W) :
    Prop :=
  ∃ moment, answer.started ≤ moment ∧ moment ≤ answer.finished ∧ answer.finished < events.length ∧
    AnsweredAt hashes db events moment answer

/-- The step that gave an answer: the load of a slot that holds a record, or the read
of the columns by a worker that had found the slot empty. -/
structure AnsweredBy (hashes : Hashes) (before : Workers W DB) (answer : Answer W) : Prop where
  finished : answer.finished = before.clock
  how : (answer.started = before.clock ∧ ∃ record,
      before.store.loadHot hashes (hashes.sha256 answer.key) = some record ∧
        answer.value = some record.value) ∨
    (before.phase answer.worker = .reading answer.key answer.started ∧
      answer.value = (before.store.readColumns hashes (hashes.sha256 answer.key)).map
        SignedRecord.value)

/-- Every answer was given by some step. -/
theorem exists_step_of_answer (hrun : Workers.run hashes (Workers.start db) events = some state)
    {answer : Answer W} (hmem : answer ∈ state.answers) :
    ∃ earlier event before, earlier ++ [event] <+: events ∧
      Workers.run hashes (Workers.start db) earlier = some before ∧
        AnsweredBy hashes before answer := by
  obtain ⟨earlier, event, before, after, hprefix, hbefore, hstep, hnot, hafter⟩ :=
    exists_step_of_not (motive := fun state : Workers W DB => answer ∈ state.answers)
      List.not_mem_nil hrun hmem
  refine ⟨earlier, event, before, hprefix, hbefore, ?_⟩
  cases event with
  | storeHot worker record =>
      obtain ⟨-, rfl⟩ := Workers.step_cases hstep
      exact absurd hafter hnot
  | sendInsert worker record =>
      obtain ⟨-, rfl⟩ := Workers.step_cases hstep
      exact absurd hafter hnot
  | loadHot worker key =>
      obtain ⟨-, ⟨record, hload, rfl⟩ | ⟨-, rfl⟩⟩ := Workers.step_cases hstep
      · cases List.mem_singleton.mp ((List.mem_append.mp hafter).resolve_left hnot)
        exact ⟨rfl, Or.inl ⟨rfl, record, hload, rfl⟩⟩
      · exact absurd hafter hnot
  | readColumns worker key =>
      obtain ⟨started, hphase, rfl⟩ := Workers.step_cases hstep
      cases List.mem_singleton.mp ((List.mem_append.mp hafter).resolve_left hnot)
      exact ⟨rfl, Or.inr ⟨hphase, rfl⟩⟩
  | writerTurn =>
      cases Workers.step_cases hstep
      exact absurd hafter hnot

omit [DecidableEq W] in
/-- With a record in its slot a get is answered from there. -/
theorem get_of_loadHot {store : TieredStore DB} {key : Bytes} {record : SignedRecord}
    (hload : store.loadHot hashes (hashes.sha256 key) = some record) :
    L2Executor.get hashes store key = some record.value := by
  rw [L2Executor.get_eq_map]
  exact congrArg (Option.map SignedRecord.value)
    (show store.getRecord hashes (hashes.sha256 key) = some record by
      rw [TieredStore.getRecord, hload])

omit [DecidableEq W] in
/-- With an empty slot it is answered from the columns. -/
theorem get_of_loadHot_eq_none {store : TieredStore DB} {key : Bytes}
    (hload : store.loadHot hashes (hashes.sha256 key) = none) :
    L2Executor.get hashes store key =
      (store.readColumns hashes (hashes.sha256 key)).map SignedRecord.value := by
  rw [L2Executor.get_eq_map]
  exact congrArg (Option.map SignedRecord.value)
    (show store.getRecord hashes (hashes.sha256 key) = _ by rw [TieredStore.getRecord, hload])

/-- The hot slot of a key after a run. -/
theorem loadHot_run (hrun : Workers.run hashes (Workers.start db) events = some state)
    (key : Bytes) :
    state.store.loadHot hashes (hashes.sha256 key) =
      latest (WorkerEvent.storedIn hashes (keySlot hashes key)) events := by
  rw [TieredStore.loadHot, Workers.hotRecord_run hrun, hotSlot_ahash_sha256]

variable [LawfulCdDB DB]

/-- A get made at once finds what was last stored in the slot of its key, and what was
recovered if nothing was. -/
theorem get_of_workers_run (hidle : CdDB.IsIdle db)
    (hrun : Workers.run hashes (Workers.start db) events = some state) (key : Bytes) :
    L2Executor.get hashes state.store key =
      ((latest (WorkerEvent.storedIn hashes (keySlot hashes key)) events).or
        ((CdDB.contents db).rows (hashes.ahash (hashes.sha256 key))).toSigned).map
          SignedRecord.value := by
  have hload := loadHot_run hrun key
  cases hlast : latest (WorkerEvent.storedIn hashes (keySlot hashes key)) events with
  | some record =>
      rw [get_of_loadHot (hload.trans hlast), Option.some_or]
      rfl
  | none =>
      rw [get_of_loadHot_eq_none (hload.trans hlast), Option.none_or, TieredStore.readColumns]
      -- no record of this slot is on its way to the columns
      rcases (Workers.provenance_run hidle hrun).rows (hashes.ahash (hashes.sha256 key)) with
        hsame | ⟨record, ⟨writer, hmem⟩, hentity, -⟩
      · rw [hsame]
      · have hstored := latest_eq_none_iff.mp hlast _ hmem
        rw [WorkerEvent.storedIn, hentity, hotSlot_ahash_sha256, if_pos rfl] at hstored
        cases hstored

/-- **A get that missed is atomic.** Its row is the one that was there when it found
the slot empty, or that of a record stored since; and when that record was stored, a
get made at once would have found it in the slot. -/
theorem exists_answeredAt_of_miss (hidle : CdDB.IsIdle db)
    (hrun : Workers.run hashes (Workers.start db) events = some state) {worker : W} {key : Bytes}
    {started : Nat} (hmiss : IsMiss hashes events worker key started) :
    ∃ moment between, started < moment ∧ moment ≤ events.length ∧
      Workers.run hashes (Workers.start db) (events.take moment) = some between ∧
        (state.store.readColumns hashes (hashes.sha256 key)).map SignedRecord.value =
          L2Executor.get hashes between.store key := by
  obtain ⟨hfirst, hempty⟩ := hmiss
  obtain ⟨hlt, -⟩ := List.getElem?_eq_some_iff.mp hfirst
  rcases (Workers.provenance_run hidle hrun).rows (hashes.ahash (hashes.sha256 key)) with
    hsame | ⟨record, ⟨writer, hmem⟩, hentity, hrow⟩
  · obtain ⟨between, hbetween, -⟩ := exists_runSteps_take hrun (started + 1)
    refine ⟨started + 1, between, Nat.lt_succ_self started, hlt, hbetween, ?_⟩
    -- then as now the row is the recovered one: nothing was stored in the slot
    rw [get_of_workers_run hidle hbetween, List.take_add_one, hfirst, Option.toList_some,
      latest_concat, hempty, TieredStore.readColumns, hsame]
    rfl
  · have hslot : hotSlot (hashes.entityId record) = keySlot hashes key := by
      rw [hentity, hotSlot_ahash_sha256]
    obtain ⟨position, hposition⟩ := List.mem_iff_getElem?.mp hmem
    obtain ⟨hstored, -⟩ := List.getElem?_eq_some_iff.mp hposition
    have hlate : started ≤ position := by
      by_contra hearly
      have htaken : .storeHot writer record ∈ events.take started := by
        refine List.mem_iff_getElem?.mpr ⟨position, ?_⟩
        rw [List.getElem?_take_of_lt (by omega), hposition]
      have hnothing := latest_eq_none_iff.mp hempty _ htaken
      rw [WorkerEvent.storedIn, if_pos hslot] at hnothing
      cases hnothing
    obtain ⟨between, hbetween, -⟩ := exists_runSteps_take hrun (position + 1)
    refine ⟨position + 1, between, by omega, hstored, hbetween, ?_⟩
    have hload : between.store.loadHot hashes (hashes.sha256 key) = some record := by
      rw [loadHot_run hbetween, List.take_add_one, hposition, Option.toList_some, latest_concat,
        WorkerEvent.storedIn, if_pos hslot, Option.some_or]
    rw [get_of_loadHot hload, TieredStore.readColumns, hrow]
    rfl

/-- **Gets are atomic.** In every interleaving of any number of workers and the
writer, every answer is that of a get made at once at some moment between its first
step and its last. -/
theorem answers_atomic (hidle : CdDB.IsIdle db)
    (hrun : Workers.run hashes (Workers.start db) events = some state) :
    ∀ answer ∈ state.answers, IsAtomic hashes db events answer := by
  intro answer hmem
  obtain ⟨earlier, event, before, hprefix, hbefore, hfinished, hhow⟩ :=
    exists_step_of_answer hrun hmem
  have hlength := hprefix.length_le
  have htake : ∀ moment ≤ earlier.length, events.take moment = earlier.take moment := by
    obtain ⟨later, rfl⟩ := (List.prefix_append earlier [event]).trans hprefix
    exact fun moment hmoment => List.take_append_of_le_length hmoment
  rw [Workers.clock_run hbefore] at hfinished hhow
  rw [List.length_append, List.length_singleton] at hlength
  rcases hhow with ⟨hstarted, record, hload, hvalue⟩ | ⟨hphase, hvalue⟩
  · refine ⟨earlier.length, hstarted.le, hfinished.ge, by omega, before, ?_, ?_⟩
    · rw [htake _ le_rfl, List.take_length]
      exact hbefore
    · rw [hvalue, get_of_loadHot hload]
  · obtain ⟨moment, between, hafter, hmoment, hbetween, hget⟩ :=
      exists_answeredAt_of_miss hidle hbefore (isMiss_of_reading hbefore hphase)
    refine ⟨moment, hafter.le, by omega, by omega, between, ?_, hvalue.trans hget⟩
    rw [htake _ hmoment]
    exact hbetween

/-- The overtaken get, which answers with the put that the slot no longer holds, is
as atomic as one made right after that put. -/
theorem answers_atomic_overtaken :
    IsAtomic sampleHashes (ReferenceDB.empty : ReferenceDB 8) overtaken
      ⟨0, keyA, some [1], 0, 7⟩ := by
  obtain ⟨state, hrun, hanswers⟩ := Option.map_eq_some_iff.mp answers_overtaken
  have hidle : CdDB.IsIdle (ReferenceDB.empty : ReferenceDB 8) := rfl
  have hmem : ⟨0, keyA, some [1], 0, 7⟩ ∈ state.answers :=
    hanswers ▸ List.mem_singleton_self _
  exact answers_atomic hidle hrun _ hmem

end ServerGo.Analysis
