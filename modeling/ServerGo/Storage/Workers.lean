/-
# Workers that share one store

The server runs one worker for each core and all of them call into one node. A
put is two steps and a get is at most two, with no lock around either, so the
steps of different workers and the turns of the background writer interleave.
`Workers` is the store together with what each worker is in the middle of; it
also keeps a clock, the answers given and the records whose commands were
accepted, which no step reads.
-/

import ServerGo.Math.Steps
import ServerGo.Storage.TieredRun

namespace ServerGo.Storage

open ServerGo.Math

/-- What a worker is in the middle of. -/
inductive Phase
  /-- Between calls. -/
  | idle
  /-- The slot is stored, the command not yet sent. -/
  | applying (record : SignedRecord)
  /-- The slot was found empty at time `started`, the columns are not yet read.
  -/
  | reading (key : Bytes) (started : Nat)
  deriving DecidableEq

/-- The answer of a get, with the times of its first and last step. -/
structure Answer (W : Type) where
  worker : W
  key : Bytes
  value : Option Bytes
  started : Nat
  finished : Nat
  deriving DecidableEq

/-- The steps that interleave. -/
inductive WorkerEvent (W : Type)
  /-- First step of applying a record. -/
  | storeHot (worker : W) (record : SignedRecord)
  /-- Second step of applying it. -/
  | sendInsert (worker : W) (record : SignedRecord)
  /-- First step of a get. -/
  | loadHot (worker : W) (key : Bytes)
  /-- Second step of a get that found its slot empty. -/
  | readColumns (worker : W) (key : Bytes)
  /-- cdDB's writer applies the oldest command of its queue. -/
  | writerTurn
  deriving DecidableEq

/-- A store and the workers that share it. -/
structure Workers (W DB : Type) where
  store : TieredStore DB
  phase : W → Phase
  /-- The number of steps taken. -/
  clock : Nat
  /-- The answers given, oldest first. -/
  answers : List (Answer W)
  /-- The records whose commands were accepted, oldest first. -/
  admitted : List SignedRecord

namespace Workers

variable {W DB : Type}

/-- All workers idle on a store just opened. -/
def start (db : DB) : Workers W DB where
  store := TieredStore.new db
  phase := fun _ => .idle
  clock := 0
  answers := []
  admitted := []

variable [DecidableEq W] [CdDB DB] (hashes : Hashes)

/-- One step, when its worker is at it. -/
def step (state : Workers W DB) : WorkerEvent W → Option (Workers W DB)
  | .storeHot worker record =>
      if state.phase worker = .idle then
        some { state with
          store := state.store.storeHot hashes record
          phase := Function.update state.phase worker (.applying record)
          clock := state.clock + 1 }
      else none
  | .sendInsert worker record =>
      if state.phase worker = .applying record then
        some { state with
          store := state.store.sendInsert hashes record
          phase := Function.update state.phase worker .idle
          clock := state.clock + 1
          admitted := if state.store.accepts hashes record then state.admitted ++ [record]
            else state.admitted }
      else none
  | .loadHot worker key =>
      if state.phase worker = .idle then
        match state.store.loadHot hashes (hashes.sha256 key) with
        | some record =>
            some { state with
              clock := state.clock + 1
              answers := state.answers ++
                [⟨worker, key, some record.value, state.clock, state.clock⟩] }
        | none =>
            some { state with
              phase := Function.update state.phase worker (.reading key state.clock)
              clock := state.clock + 1 }
      else none
  | .readColumns worker key =>
      match state.phase worker with
      | .reading asked started =>
          if asked = key then
            let value := (state.store.readColumns hashes (hashes.sha256 key)).map SignedRecord.value
            some { state with
              phase := Function.update state.phase worker .idle
              clock := state.clock + 1
              answers := state.answers ++ [⟨worker, key, value, started, state.clock⟩] }
          else none
      | _ => none
  | .writerTurn =>
      some { state with store := state.store.backgroundWrite, clock := state.clock + 1 }

/-- The state after a trace of steps, when each was possible in its turn. -/
abbrev run (start : Workers W DB) (events : List (WorkerEvent W)) : Option (Workers W DB) :=
  runSteps (step hashes) start events

variable {hashes}

/-- What a step can do, event by event. -/
theorem step_cases {state after : Workers W DB} {event : WorkerEvent W} :
    step hashes state event = some after →
    match event with
    | .storeHot worker record =>
        state.phase worker = .idle ∧
        after = { state with
          store := state.store.storeHot hashes record
          phase := Function.update state.phase worker (.applying record)
          clock := state.clock + 1 }
    | .sendInsert worker record =>
        state.phase worker = .applying record ∧
        after = { state with
          store := state.store.sendInsert hashes record
          phase := Function.update state.phase worker .idle
          clock := state.clock + 1
          admitted := if state.store.accepts hashes record then state.admitted ++ [record]
            else state.admitted }
    | .loadHot worker key =>
        state.phase worker = .idle ∧
        ((∃ record, state.store.loadHot hashes (hashes.sha256 key) = some record ∧
          after = { state with
            clock := state.clock + 1
            answers := state.answers ++
              [⟨worker, key, some record.value, state.clock, state.clock⟩] }) ∨
        (state.store.loadHot hashes (hashes.sha256 key) = none ∧
          after = { state with
            phase := Function.update state.phase worker (.reading key state.clock)
            clock := state.clock + 1 }))
    | .readColumns worker key =>
        ∃ started, state.phase worker = .reading key started ∧
        after = { state with
          phase := Function.update state.phase worker .idle
          clock := state.clock + 1
          answers := state.answers ++
            [⟨worker, key,
              (state.store.readColumns hashes (hashes.sha256 key)).map SignedRecord.value,
              started, state.clock⟩] }
    | .writerTurn =>
        after = { state with store := state.store.backgroundWrite, clock := state.clock + 1 } := by
  intro hstep
  cases event with
  | storeHot worker record =>
      obtain ⟨hidle, hafter⟩ := Option.ite_none_right_eq_some.mp hstep
      exact ⟨hidle, (Option.some.inj hafter).symm⟩
  | sendInsert worker record =>
      obtain ⟨happlying, hafter⟩ := Option.ite_none_right_eq_some.mp hstep
      exact ⟨happlying, (Option.some.inj hafter).symm⟩
  | loadHot worker key =>
      obtain ⟨hidle, hafter⟩ := Option.ite_none_right_eq_some.mp hstep
      refine ⟨hidle, ?_⟩
      split at hafter
      next record hload => exact Or.inl ⟨record, hload, (Option.some.inj hafter).symm⟩
      next hload => exact Or.inr ⟨hload, (Option.some.inj hafter).symm⟩
  | readColumns worker key =>
      rw [step] at hstep
      split at hstep
      next asked started hphase =>
          obtain ⟨rfl, hafter⟩ := Option.ite_none_right_eq_some.mp hstep
          exact ⟨started, hphase, (Option.some.inj hafter).symm⟩
      next => cases hstep
  | writerTurn => exact (Option.some.inj hstep).symm

/-- A worker that has not just entered a phase was in it before. -/
theorem phase_of_update {phases : W → Phase} {worker other : W} {phase entered : Phase}
    (hne : phase ≠ entered) (hother : Function.update phases worker phase other = entered) :
    phases other = entered := by
  rw [Function.update_apply] at hother
  split at hother
  · exact absurd hother hne
  · exact hother

/-! ## Reading a trace -/

end Workers

namespace WorkerEvent

variable {W : Type} (hashes : Hashes)

/-- The record an event stores in a slot. -/
def storedIn (slot : Nat) : WorkerEvent W → Option SignedRecord
  | .storeHot _ record => if hotSlot (hashes.entityId record) = slot then some record else none
  | _ => none

/-- The record an event stores at an address. -/
def storedAt (hash : Hash32) : WorkerEvent W → Option SignedRecord
  | .storeHot _ record => if hashes.address record.payload = hash then some record else none
  | _ => none

/-- The worker whose step an event is. -/
def worker? : WorkerEvent W → Option W
  | .storeHot worker _ => some worker
  | .sendInsert worker _ => some worker
  | .loadHot worker _ => some worker
  | .readColumns worker _ => some worker
  | .writerTurn => none

/-- The record an event stores in its slot. -/
def stored? : WorkerEvent W → Option SignedRecord
  | .storeHot _ record => some record
  | _ => none

/-- The record whose command an event sends. -/
def sent? : WorkerEvent W → Option SignedRecord
  | .sendInsert _ record => some record
  | _ => none

/-- What is stored in a slot is what is stored and has its place there. -/
theorem storedIn_eq_bind (slot : Nat) (event : WorkerEvent W) :
    event.storedIn hashes slot = event.stored?.bind fun record =>
      if hotSlot (hashes.entityId record) = slot then some record else none := by
  cases event <;> rfl

end WorkerEvent

namespace Workers

variable {W DB : Type} [DecidableEq W] [CdDB DB] {hashes : Hashes}

/-- A step leaves the other workers where they are. -/
theorem phase_step_of_ne {state after : Workers W DB} {event : WorkerEvent W}
    (hstep : step hashes state event = some after) {other : W}
    (hother : event.worker? ≠ some other) : after.phase other = state.phase other := by
  cases event with
  | storeHot worker record =>
      obtain ⟨-, rfl⟩ := step_cases hstep
      exact Function.update_of_ne (fun hsame => hother (congrArg some hsame.symm)) ..
  | sendInsert worker record =>
      obtain ⟨-, rfl⟩ := step_cases hstep
      exact Function.update_of_ne (fun hsame => hother (congrArg some hsame.symm)) ..
  | loadHot worker key =>
      obtain ⟨-, ⟨record, -, rfl⟩ | ⟨-, rfl⟩⟩ := step_cases hstep
      · rfl
      · exact Function.update_of_ne (fun hsame => hother (congrArg some hsame.symm)) ..
  | readColumns worker key =>
      obtain ⟨started, -, rfl⟩ := step_cases hstep
      exact Function.update_of_ne (fun hsame => hother (congrArg some hsame.symm)) ..
  | writerTurn =>
      cases step_cases hstep
      rfl

/-- A worker begins to read the columns when it has found the slot empty. -/
theorem loadHot_eq_none_of_step {state after : Workers W DB} {event : WorkerEvent W}
    (hstep : step hashes state event = some after) {worker : W} {key : Bytes} {started : Nat}
    (hbefore : state.phase worker ≠ .reading key started)
    (hafter : after.phase worker = .reading key started) :
    state.store.loadHot hashes (hashes.sha256 key) = none := by
  -- what a worker enters that is no read
  have hentered : ∀ {other : W} {phase : Phase}, phase ≠ .reading key started →
      Function.update state.phase other phase worker ≠ .reading key started :=
    fun hphase hreading => hbefore (phase_of_update hphase hreading)
  cases event with
  | storeHot other record =>
      obtain ⟨-, rfl⟩ := step_cases hstep
      exact absurd hafter (hentered Phase.noConfusion)
  | sendInsert other record =>
      obtain ⟨-, rfl⟩ := step_cases hstep
      exact absurd hafter (hentered Phase.noConfusion)
  | loadHot other asked =>
      obtain ⟨-, ⟨record, -, rfl⟩ | ⟨hload, rfl⟩⟩ := step_cases hstep
      · exact absurd hafter hbefore
      · by_cases hreading : (Phase.reading asked state.clock : Phase) = .reading key started
        · cases hreading
          exact hload
        · exact absurd hafter (hentered hreading)
  | readColumns other asked =>
      obtain ⟨_, -, rfl⟩ := step_cases hstep
      exact absurd hafter (hentered Phase.noConfusion)
  | writerTurn =>
      cases step_cases hstep
      exact absurd hafter hbefore

theorem clock_step {state after : Workers W DB} {event : WorkerEvent W}
    (hstep : step hashes state event = some after) : after.clock = state.clock + 1 := by
  cases event with
  | storeHot worker record =>
      obtain ⟨-, rfl⟩ := step_cases hstep
      rfl
  | sendInsert worker record =>
      obtain ⟨-, rfl⟩ := step_cases hstep
      rfl
  | loadHot worker key =>
      obtain ⟨-, ⟨record, -, rfl⟩ | ⟨-, rfl⟩⟩ := step_cases hstep <;> rfl
  | readColumns worker key =>
      obtain ⟨started, -, rfl⟩ := step_cases hstep
      rfl
  | writerTurn =>
      cases step_cases hstep
      rfl

/-- The clock counts the steps. -/
theorem clock_run {db : DB} {events : List (WorkerEvent W)} {state : Workers W DB}
    (hrun : run hashes (start db) events = some state) : state.clock = events.length := by
  refine runSteps_induction (motive := fun events state => state.clock = events.length) rfl ?_ hrun
  intro events before event after _ ih hstep
  rw [List.length_append, ← ih]
  exact clock_step hstep

/-- A slot holds the record last stored there, whatever else went on. -/
theorem hotIndex_run {db : DB} {events : List (WorkerEvent W)} {state : Workers W DB}
    (hrun : run hashes (start db) events = some state) (entityId : EntityId) :
    state.store.hotIndex.get entityId =
      (latest (WorkerEvent.storedIn hashes (hotSlot entityId)) events).map
        SignedRecord.toCached := by
  refine runSteps_induction (motive := fun events state => state.store.hotIndex.get entityId =
    (latest (WorkerEvent.storedIn hashes (hotSlot entityId)) events).map SignedRecord.toCached)
    (get_newHotIndex entityId) ?_ hrun
  intro events before event after _ ih hstep
  rw [latest_concat]
  cases event with
  | storeHot worker record =>
      obtain ⟨-, rfl⟩ := step_cases hstep
      rw [TieredStore.storeHot_hotIndex_get, ih, WorkerEvent.storedIn]
      split <;> rfl
  | sendInsert worker record =>
      obtain ⟨-, rfl⟩ := step_cases hstep
      exact (congrArg (GlobalHotIndex.get · entityId)
        (TieredStore.sendInsert_hotIndex before.store record)).trans ih
  | loadHot worker key =>
      obtain ⟨-, ⟨record, -, rfl⟩ | ⟨-, rfl⟩⟩ := step_cases hstep <;> exact ih
  | readColumns worker key =>
      obtain ⟨started, -, rfl⟩ := step_cases hstep
      exact ih
  | writerTurn =>
      cases step_cases hstep
      exact ih

/-- So the record it serves is that one. -/
theorem hotRecord_run {db : DB} {events : List (WorkerEvent W)} {state : Workers W DB}
    (hrun : run hashes (start db) events = some state) (entityId : EntityId) :
    (state.store.hotIndex.get entityId).map CachedRecord.toSigned =
      latest (WorkerEvent.storedIn hashes (hotSlot entityId)) events := by
  rw [hotIndex_run hrun, Option.map_map]
  exact Option.map_id_apply

/-! ## Where a row comes from -/

/-- Some worker stored this record in its slot. -/
def Stored (events : List (WorkerEvent W)) (record : SignedRecord) : Prop :=
  ∃ worker, .storeHot worker record ∈ events

omit [DecidableEq W] in
theorem Stored.concat {events : List (WorkerEvent W)} {record : SignedRecord}
    (hstored : Stored events record) (event : WorkerEvent W) :
    Stored (events ++ [event]) record := by
  obtain ⟨worker, hmem⟩ := hstored
  exact ⟨worker, List.mem_append_left _ hmem⟩

/-- Every record on its way to the columns was stored in its slot before, and a
row that is not the recovered one is that of such a record. -/
structure Provenance (hashes : Hashes) (recovered : EntityId → Row)
    (events : List (WorkerEvent W)) (state : Workers W DB) : Prop where
  applying : ∀ worker record, state.phase worker = .applying record → Stored events record
  pending : ∀ command ∈ (CdDB.contents state.store.db).pending,
    ∃ record, Stored events record ∧ command = record.toInsertFast hashes
  rows : ∀ entityId, (CdDB.contents state.store.db).rows entityId = recovered entityId ∨
    ∃ record, Stored events record ∧ hashes.entityId record = entityId ∧
      (CdDB.contents state.store.db).rows entityId = (record.toInsertFast hashes).row

variable {recovered : EntityId → Row} {events : List (WorkerEvent W)} {before : Workers W DB}

omit [DecidableEq W] in
/-- What a step must respect to keep the provenance: a worker is applying, and a
command is queued, only for a record that was stored; and a row changes only to
that of a queued command. -/
theorem Provenance.concat (hprovenance : Provenance hashes recovered events before)
    (event : WorkerEvent W) {after : Workers W DB}
    (happlying : ∀ worker record, after.phase worker = .applying record →
      Stored (events ++ [event]) record)
    (hpending : ∀ command ∈ (CdDB.contents after.store.db).pending,
      command ∈ (CdDB.contents before.store.db).pending ∨
        ∃ record, Stored (events ++ [event]) record ∧ command = record.toInsertFast hashes)
    (hrows : ∀ entityId, (CdDB.contents after.store.db).rows entityId =
        (CdDB.contents before.store.db).rows entityId ∨
      ∃ command ∈ (CdDB.contents before.store.db).pending, command.entityId = entityId ∧
        (CdDB.contents after.store.db).rows entityId = command.row) :
    Provenance hashes recovered (events ++ [event]) after where
  applying := happlying
  pending := by
    intro command hmem
    rcases hpending command hmem with hold | hnew
    · obtain ⟨record, hstored, hcommand⟩ := hprovenance.pending command hold
      exact ⟨record, hstored.concat event, hcommand⟩
    · exact hnew
  rows := by
    intro entityId
    rcases hrows entityId with hsame | ⟨command, hmem, hkey, hrow⟩
    · rw [hsame]
      rcases hprovenance.rows entityId with hold | ⟨record, hstored, hentity, hrow⟩
      · exact Or.inl hold
      · exact Or.inr ⟨record, hstored.concat event, hentity, hrow⟩
    · obtain ⟨record, hstored, rfl⟩ := hprovenance.pending command hmem
      exact Or.inr ⟨record, hstored.concat event, hkey, hrow⟩

omit [DecidableEq W] in
/-- Nothing is on its way to the columns of a store with no command pending. -/
theorem provenance_start {db : DB} (hidle : CdDB.IsIdle db) :
    Provenance hashes (CdDB.contents db).rows [] (start db : Workers W DB) where
  applying := by
    intro worker record hphase
    cases hphase
  pending := by
    intro command hmem
    have hpending : command ∈ (CdDB.contents db).pending := hmem
    rw [hidle] at hpending
    cases hpending
  rows _ := Or.inl rfl

variable [LawfulCdDB DB]

theorem Provenance.step (hprovenance : Provenance hashes recovered events before)
    {event : WorkerEvent W} {after : Workers W DB}
    (hstep : Workers.step hashes before event = some after) :
    Provenance hashes recovered (events ++ [event]) after := by
  -- a worker that was applying a record and still is
  have hkept : ∀ worker record, before.phase worker = .applying record →
      Stored (events ++ [event]) record := fun worker record hphase =>
    (hprovenance.applying worker record hphase).concat event
  -- the worker of this step takes up something else
  have hleft : ∀ (worker : W) (phase : Phase), (∀ record, phase ≠ .applying record) →
      ∀ other record, Function.update before.phase worker phase other = .applying record →
        Stored (events ++ [event]) record := by
    intro worker phase hphase other record hother
    exact hkept other record (phase_of_update (hphase record) hother)
  cases event with
  | storeHot worker record =>
      obtain ⟨-, rfl⟩ := step_cases hstep
      refine hprovenance.concat _ ?_ (fun _ hmem => Or.inl hmem) fun _ => Or.inl rfl
      intro other stored hother
      simp only [Function.update_apply] at hother
      split at hother
      · cases hother
        exact ⟨worker, by simp⟩
      · exact hkept other stored hother
  | sendInsert worker record =>
      obtain ⟨hphase, rfl⟩ := step_cases hstep
      refine hprovenance.concat _ (hleft worker .idle fun _ hne => nomatch hne) ?_ ?_
      · intro command hmem
        rw [TieredStore.sendInsert_contents] at hmem
        split at hmem
        · rcases List.mem_append.mp hmem with hold | hnew
          · exact Or.inl hold
          · exact Or.inr ⟨record, hkept worker record hphase, List.mem_singleton.mp hnew⟩
        · exact Or.inl hmem
      · intro entityId
        left
        rw [TieredStore.sendInsert_contents]
        split <;> rfl
  | loadHot worker key =>
      obtain ⟨-, ⟨record, -, rfl⟩ | ⟨-, rfl⟩⟩ := step_cases hstep
      · exact hprovenance.concat _ hkept (fun _ hmem => Or.inl hmem) fun _ => Or.inl rfl
      · exact hprovenance.concat _ (hleft worker _ fun _ hne => nomatch hne)
          (fun _ hmem => Or.inl hmem) fun _ => Or.inl rfl
  | readColumns worker key =>
      obtain ⟨started, -, rfl⟩ := step_cases hstep
      exact hprovenance.concat _ (hleft worker _ fun _ hne => nomatch hne)
        (fun _ hmem => Or.inl hmem) fun _ => Or.inl rfl
  | writerTurn =>
      cases step_cases hstep
      refine hprovenance.concat _ hkept ?_ ?_
      · intro command hmem
        rw [TieredStore.backgroundWrite_contents] at hmem
        exact Or.inl (WriteBehind.writeOne_pending_subset _ hmem)
      · intro entityId
        rw [TieredStore.backgroundWrite_contents]
        exact WriteBehind.writeOne_rows InsertFast.entityId InsertFast.row
          (CdDB.contents before.store.db) entityId

theorem provenance_run {db : DB} (hidle : CdDB.IsIdle db) {state : Workers W DB}
    (hrun : run hashes (start db) events = some state) :
    Provenance hashes (CdDB.contents db).rows events state :=
  runSteps_induction (provenance_start hidle) (fun _ _ _ _ _ ih hstep => ih.step hstep) hrun

/-! ## What the queue will leave -/

/-- Each entity settles on the last record of it whose command was accepted, and
on the recovered row when there is none. -/
theorem settledRows_run {db : DB} (hidle : CdDB.IsIdle db) {state : Workers W DB}
    (hrun : run hashes (start db) events = some state) (entityId : EntityId) :
    state.store.settledRows entityId =
      ((TieredStore.lastOfEntity hashes entityId state.admitted).map fun record =>
        (record.toInsertFast hashes).row).getD ((CdDB.contents db).rows entityId) := by
  refine runSteps_induction (motive := fun _ state => state.store.settledRows entityId =
    ((TieredStore.lastOfEntity hashes entityId state.admitted).map fun record =>
      (record.toInsertFast hashes).row).getD ((CdDB.contents db).rows entityId)) ?_ ?_ hrun
  · exact congrFun (TieredStore.settledRows_of_isIdle hidle) entityId
  · intro events before event after _ ih hstep
    cases event with
    | storeHot worker record =>
        obtain ⟨-, rfl⟩ := step_cases hstep
        exact ih
    | sendInsert worker record =>
        obtain ⟨-, rfl⟩ := step_cases hstep
        exact TieredStore.settledRows_sendInsert_of_eq before.store ih record
    | loadHot worker key =>
        obtain ⟨-, ⟨record, -, rfl⟩ | ⟨-, rfl⟩⟩ := step_cases hstep <;> exact ih
    | readColumns worker key =>
        obtain ⟨started, -, rfl⟩ := step_cases hstep
        exact ih
    | writerTurn =>
        cases step_cases hstep
        exact (congrFun (TieredStore.settledRows_backgroundWrite before.store) entityId).trans ih

end Workers

end ServerGo.Storage
