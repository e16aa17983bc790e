/-
# Workers that count what they do

A get and a put are counted before anything else; a get is counted once more, as a
hit or a miss, between its look at the slot and whatever comes next. Each count is a
step of its own, and the steps of the other workers fall in between. Leaving the
counts out leaves a run of the workers, and every run of theirs can be counted.
-/

import ServerGo.Math.Simulation
import ServerGo.Storage.Workers

namespace ServerGo.Storage

open ServerGo.Math

/-- `db_metrics`. A `Counter` of the source wraps at `2 ^ 64`: it shows these numbers
modulo that. -/
structure Metrics where
  dbGets : Nat
  dbPuts : Nat
  cacheHits : Nat
  cacheMisses : Nat
  deriving DecidableEq

/-- What a worker has counted, or is about to. -/
inductive Counting
  | nothing
  /-- The get is counted, its slot not yet loaded. -/
  | asked (key : Bytes)
  /-- The slot held a record, the hit is not yet counted. -/
  | hit
  /-- The slot was empty, the miss is not yet counted. -/
  | missed
  /-- The put is counted, its record not yet stored. -/
  | putting (record : SignedRecord)
  deriving DecidableEq

/-- The steps that interleave. -/
inductive MeteredEvent (W : Type)
  /-- `db_gets().inc()`. -/
  | countGet (worker : W) (key : Bytes)
  /-- `db_puts().inc()`. -/
  | countPut (worker : W) (key val : Bytes)
  /-- A get that is counted loads its slot. -/
  | load (worker : W) (key : Bytes)
  /-- `cache_hits().inc()`. -/
  | countHit (worker : W)
  /-- `cache_misses().inc()`. -/
  | countMiss (worker : W)
  /-- A put that is counted stores its record in the slot. -/
  | store (worker : W) (record : SignedRecord)
  /-- A record that comes from the network is stored, and is not counted. -/
  | receive (worker : W) (record : SignedRecord)
  | sendInsert (worker : W) (record : SignedRecord)
  | readColumns (worker : W) (key : Bytes)
  | writerTurn
  deriving DecidableEq

/-- What a step is to the workers, when it is not a count. -/
def MeteredEvent.inner? {W : Type} : MeteredEvent W → Option (WorkerEvent W)
  | .countGet _ _ => none
  | .countPut _ _ _ => none
  | .load worker key => some (.loadHot worker key)
  | .countHit _ => none
  | .countMiss _ => none
  | .store worker record => some (.storeHot worker record)
  | .receive worker record => some (.storeHot worker record)
  | .sendInsert worker record => some (.sendInsert worker record)
  | .readColumns worker key => some (.readColumns worker key)
  | .writerTurn => some .writerTurn

/-- A step of the workers, and whether a client's put has asked for it. -/
structure Attributed (W : Type) where
  event : WorkerEvent W
  isFromPut : Bool

/-- What a step is to the workers, and whether it is the store of a put, when it is not
a count. -/
def MeteredEvent.attributed? {W : Type} : MeteredEvent W → Option (Attributed W)
  | .store worker record => some ⟨.storeHot worker record, true⟩
  | event => event.inner?.map fun inner => ⟨inner, false⟩

/-- What a put asks for is that the record of its key and value be stored. -/
def Attributed.IsFounded {W : Type} (hashes : Hashes) (attributed : Attributed W) : Prop :=
  attributed.isFromPut = true →
    ∃ worker key val, attributed.event = .storeHot worker (kvRecord hashes key val)

theorem MeteredEvent.filterMap_inner {W : Type} (events : List (MeteredEvent W)) :
    events.filterMap MeteredEvent.inner? =
      (events.filterMap MeteredEvent.attributed?).map Attributed.event := by
  rw [List.map_filterMap]
  congr 1
  funext event
  cases event <;> rfl

/-- Workers, what each has counted, and the counters. -/
structure Metered (W DB : Type) where
  workers : Workers W DB
  counting : W → Counting
  metrics : Metrics

namespace Metered

variable {W DB : Type}

/-- All workers idle, and nothing counted. -/
def start (db : DB) : Metered W DB where
  workers := Workers.start db
  counting := fun _ => .nothing
  metrics := ⟨0, 0, 0, 0⟩

variable [DecidableEq W] [CdDB DB] (hashes : Hashes)

/-- The workers take a step. -/
def work (state : Metered W DB) (event : WorkerEvent W) (counting : W → Counting) :
    Option (Metered W DB) :=
  (Workers.step hashes state.workers event).map fun workers =>
    { state with workers := workers, counting := counting }

/-- One step, when its worker is at it. -/
def step (state : Metered W DB) : MeteredEvent W → Option (Metered W DB)
  | .countGet worker key =>
      if state.counting worker = .nothing ∧ state.workers.phase worker = .idle then
        some { state with
          counting := Function.update state.counting worker (.asked key)
          metrics := { state.metrics with dbGets := state.metrics.dbGets + 1 } }
      else none
  | .countPut worker key val =>
      if state.counting worker = .nothing ∧ state.workers.phase worker = .idle then
        some { state with
          counting := Function.update state.counting worker (.putting (kvRecord hashes key val))
          metrics := { state.metrics with dbPuts := state.metrics.dbPuts + 1 } }
      else none
  | .load worker key =>
      if state.counting worker = .asked key then
        state.work hashes (.loadHot worker key)
          (Function.update state.counting worker
            (match state.workers.store.loadHot hashes (hashes.sha256 key) with
              | some _ => .hit
              | none => .missed))
      else none
  | .countHit worker =>
      if state.counting worker = .hit then
        some { state with
          counting := Function.update state.counting worker .nothing
          metrics := { state.metrics with cacheHits := state.metrics.cacheHits + 1 } }
      else none
  | .countMiss worker =>
      if state.counting worker = .missed then
        some { state with
          counting := Function.update state.counting worker .nothing
          metrics := { state.metrics with cacheMisses := state.metrics.cacheMisses + 1 } }
      else none
  | .store worker record =>
      if state.counting worker = .putting record then
        state.work hashes (.storeHot worker record)
          (Function.update state.counting worker .nothing)
      else none
  | .receive worker record =>
      if state.counting worker = .nothing then
        state.work hashes (.storeHot worker record) state.counting
      else none
  | .sendInsert worker record => state.work hashes (.sendInsert worker record) state.counting
  | .readColumns worker key =>
      if state.counting worker = .nothing then
        state.work hashes (.readColumns worker key) state.counting
      else none
  | .writerTurn => state.work hashes .writerTurn state.counting

/-- The state after a trace of steps, when each was possible in its turn. -/
abbrev run (start : Metered W DB) (events : List (MeteredEvent W)) : Option (Metered W DB) :=
  runSteps (step hashes) start events

variable {hashes} {state after : Metered W DB}

theorem work_eq_some {event : WorkerEvent W} {counting : W → Counting} :
    state.work hashes event counting = some after ↔
      ∃ workers, Workers.step hashes state.workers event = some workers ∧
        after = { state with workers := workers, counting := counting } := by
  rw [work, Option.map_eq_some_iff]
  exact exists_congr fun _ => and_congr_right fun _ => eq_comm

/-- What a step can do, event by event. -/
theorem step_cases {event : MeteredEvent W} (hstep : step hashes state event = some after) :
    match event with
    | .countGet worker key =>
        state.counting worker = .nothing ∧ state.workers.phase worker = .idle ∧
        after = { state with
          counting := Function.update state.counting worker (.asked key)
          metrics := { state.metrics with dbGets := state.metrics.dbGets + 1 } }
    | .countPut worker key val =>
        state.counting worker = .nothing ∧ state.workers.phase worker = .idle ∧
        after = { state with
          counting := Function.update state.counting worker (.putting (kvRecord hashes key val))
          metrics := { state.metrics with dbPuts := state.metrics.dbPuts + 1 } }
    | .load worker key =>
        state.counting worker = .asked key ∧
        ∃ workers, Workers.step hashes state.workers (.loadHot worker key) = some workers ∧
          after = { state with
            workers := workers
            counting := Function.update state.counting worker
              (match state.workers.store.loadHot hashes (hashes.sha256 key) with
                | some _ => .hit
                | none => .missed) }
    | .countHit worker =>
        state.counting worker = .hit ∧
        after = { state with
          counting := Function.update state.counting worker .nothing
          metrics := { state.metrics with cacheHits := state.metrics.cacheHits + 1 } }
    | .countMiss worker =>
        state.counting worker = .missed ∧
        after = { state with
          counting := Function.update state.counting worker .nothing
          metrics := { state.metrics with cacheMisses := state.metrics.cacheMisses + 1 } }
    | .store worker record =>
        state.counting worker = .putting record ∧
        ∃ workers, Workers.step hashes state.workers (.storeHot worker record) = some workers ∧
          after = { state with
            workers := workers
            counting := Function.update state.counting worker .nothing }
    | .receive worker record =>
        state.counting worker = .nothing ∧
        ∃ workers, Workers.step hashes state.workers (.storeHot worker record) = some workers ∧
          after = { state with workers := workers }
    | .sendInsert worker record =>
        ∃ workers, Workers.step hashes state.workers (.sendInsert worker record) = some workers ∧
          after = { state with workers := workers }
    | .readColumns worker key =>
        state.counting worker = .nothing ∧
        ∃ workers, Workers.step hashes state.workers (.readColumns worker key) = some workers ∧
          after = { state with workers := workers }
    | .writerTurn =>
        ∃ workers, Workers.step hashes state.workers .writerTurn = some workers ∧
          after = { state with workers := workers } := by
  cases event with
  | countGet worker key =>
      obtain ⟨⟨hnothing, hidle⟩, hafter⟩ := Option.ite_none_right_eq_some.mp hstep
      exact ⟨hnothing, hidle, (Option.some.inj hafter).symm⟩
  | countPut worker key val =>
      obtain ⟨⟨hnothing, hidle⟩, hafter⟩ := Option.ite_none_right_eq_some.mp hstep
      exact ⟨hnothing, hidle, (Option.some.inj hafter).symm⟩
  | load worker key =>
      obtain ⟨hasked, hwork⟩ := Option.ite_none_right_eq_some.mp hstep
      exact ⟨hasked, work_eq_some.mp hwork⟩
  | countHit worker =>
      obtain ⟨hhit, hafter⟩ := Option.ite_none_right_eq_some.mp hstep
      exact ⟨hhit, (Option.some.inj hafter).symm⟩
  | countMiss worker =>
      obtain ⟨hmissed, hafter⟩ := Option.ite_none_right_eq_some.mp hstep
      exact ⟨hmissed, (Option.some.inj hafter).symm⟩
  | store worker record =>
      obtain ⟨hputting, hwork⟩ := Option.ite_none_right_eq_some.mp hstep
      exact ⟨hputting, work_eq_some.mp hwork⟩
  | receive worker record =>
      obtain ⟨hnothing, hwork⟩ := Option.ite_none_right_eq_some.mp hstep
      exact ⟨hnothing, work_eq_some.mp hwork⟩
  | sendInsert worker record => exact work_eq_some.mp hstep
  | readColumns worker key =>
      obtain ⟨hnothing, hwork⟩ := Option.ite_none_right_eq_some.mp hstep
      exact ⟨hnothing, work_eq_some.mp hwork⟩
  | writerTurn => exact work_eq_some.mp hstep

/-- A step is a step of the workers, or leaves them alone. -/
theorem step_inner {event : MeteredEvent W} (hstep : step hashes state event = some after) :
    match event.inner? with
    | some inner => Workers.step hashes state.workers inner = some after.workers
    | none => after.workers = state.workers := by
  cases event with
  | countGet worker key =>
      obtain ⟨-, -, rfl⟩ := step_cases hstep
      rfl
  | countPut worker key val =>
      obtain ⟨-, -, rfl⟩ := step_cases hstep
      rfl
  | load worker key =>
      obtain ⟨-, workers, hworkers, rfl⟩ := step_cases hstep
      exact hworkers
  | countHit worker =>
      obtain ⟨-, rfl⟩ := step_cases hstep
      rfl
  | countMiss worker =>
      obtain ⟨-, rfl⟩ := step_cases hstep
      rfl
  | store worker record =>
      obtain ⟨-, workers, hworkers, rfl⟩ := step_cases hstep
      exact hworkers
  | receive worker record =>
      obtain ⟨-, workers, hworkers, rfl⟩ := step_cases hstep
      exact hworkers
  | sendInsert worker record =>
      obtain ⟨workers, hworkers, rfl⟩ := step_cases hstep
      exact hworkers
  | readColumns worker key =>
      obtain ⟨-, workers, hworkers, rfl⟩ := step_cases hstep
      exact hworkers
  | writerTurn =>
      obtain ⟨workers, hworkers, rfl⟩ := step_cases hstep
      exact hworkers

/-- **Counting is not seen by the workers.** -/
def simulation (hashes : Hashes) :
    Simulation (step hashes : Metered W DB → MeteredEvent W → Option (Metered W DB))
      (Workers.step hashes : Workers W DB → WorkerEvent W → Option (Workers W DB)) where
  Rel state workers := workers = state.workers
  matching _ event := event.inner?.toList
  rel_step := by
    rintro state after _ event rfl hstep
    have hinner := step_inner hstep
    refine ⟨after.workers, ?_, rfl⟩
    cases hevent : event.inner? with
    | some inner =>
        rw [hevent] at hinner
        rw [Option.toList_some, runSteps_cons, hinner]
        rfl
    | none =>
        rw [hevent] at hinner
        rw [Option.toList_none, runSteps_nil, hinner]

/-- A run without its counts is a run of the workers. -/
theorem workers_run {db : DB} {events : List (MeteredEvent W)}
    (hrun : run hashes (start db) events = some state) :
    Workers.run hashes (Workers.start db) (events.filterMap MeteredEvent.inner?) =
      some state.workers := by
  obtain ⟨_, hworkers, rfl⟩ := (simulation hashes).rel_run rfl hrun
  rwa [(simulation hashes).trace_eq_filterMap (fun _ _ => rfl) hrun] at hworkers

/-- A put that is counted is of the record of a key and a value. -/
theorem putting_run {db : DB} {events : List (MeteredEvent W)}
    (hrun : run hashes (start db) events = some state) {worker : W} {record : SignedRecord}
    (hputting : state.counting worker = .putting record) :
    ∃ key val, record = kvRecord hashes key val := by
  revert hputting
  refine runSteps_induction (motive := fun _ (state : Metered W DB) =>
    state.counting worker = .putting record → ∃ key val, record = kvRecord hashes key val) ?_ ?_
    hrun
  · intro hputting
    cases hputting
  intro events before event after _ ih hstep hputting
  -- a worker that counts something else was putting the record before
  have hkept : ∀ (other : W) (next : Counting), next ≠ .putting record →
      Function.update before.counting other next worker = .putting record →
        ∃ key val, record = kvRecord hashes key val := by
    intro other next hnext hupdate
    rw [Function.update_apply] at hupdate
    split at hupdate
    · exact absurd hupdate hnext
    · exact ih hupdate
  cases event with
  | countGet other key =>
      obtain ⟨-, -, rfl⟩ := step_cases hstep
      exact hkept other _ (by simp) hputting
  | countPut other key val =>
      obtain ⟨-, -, rfl⟩ := step_cases hstep
      dsimp only at hputting
      rw [Function.update_apply] at hputting
      split at hputting
      · cases hputting
        exact ⟨key, val, rfl⟩
      · exact ih hputting
  | load other key =>
      obtain ⟨-, workers, -, rfl⟩ := step_cases hstep
      refine hkept other _ ?_ hputting
      split <;> simp
  | countHit other =>
      obtain ⟨-, rfl⟩ := step_cases hstep
      exact hkept other _ (by simp) hputting
  | countMiss other =>
      obtain ⟨-, rfl⟩ := step_cases hstep
      exact hkept other _ (by simp) hputting
  | store other stored =>
      obtain ⟨-, workers, -, rfl⟩ := step_cases hstep
      exact hkept other _ (by simp) hputting
  | receive other stored =>
      obtain ⟨-, workers, -, rfl⟩ := step_cases hstep
      exact ih hputting
  | sendInsert other sent =>
      obtain ⟨workers, -, rfl⟩ := step_cases hstep
      exact ih hputting
  | readColumns other key =>
      obtain ⟨-, workers, -, rfl⟩ := step_cases hstep
      exact ih hputting
  | writerTurn =>
      obtain ⟨workers, -, rfl⟩ := step_cases hstep
      exact ih hputting

end Metered

end ServerGo.Storage
