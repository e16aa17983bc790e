/-
# What the counters say

The counters lag behind the work by what is in flight: a get is counted before its
slot is loaded, a hit or a miss after. Taking what is in flight into account they are
exact in every state, however the workers interleave; and the misses stop, slot by
slot, once a record has been stored there.
-/

import Mathlib.Data.Fintype.Basic
import ServerGo.Math.Census
import ServerGo.Storage.Metrics

namespace ServerGo.Analysis

open ServerGo.Math ServerGo.Storage

variable {W DB : Type} [DecidableEq W] [CdDB DB] {hashes : Hashes} {db : DB}

/-! ## Counting changes nothing -/

section

variable {state : Metered W DB} {workers : Workers W DB} {worker : W}

/-- When nothing is left to count, a worker can make a get whole: it counts it, loads
the slot, and counts what it found. -/
theorem exists_counted_loadHot {key : Bytes} (hcounting : state.counting = fun _ => .nothing)
    (hstep : Workers.step hashes state.workers (.loadHot worker key) = some workers) :
    ∃ counted after,
      counted.filterMap MeteredEvent.attributed? = [⟨.loadHot worker key, false⟩] ∧
      Metered.run hashes state counted = some after ∧ after.workers = workers ∧
        after.counting = fun _ => .nothing := by
  obtain ⟨hidle, hload⟩ := Workers.step_cases hstep
  have hasked : Metered.step hashes state (.countGet worker key) = some { state with
      counting := Function.update state.counting worker (.asked key)
      metrics := { state.metrics with dbGets := state.metrics.dbGets + 1 } } :=
    if_pos ⟨by rw [hcounting], hidle⟩
  have hback : Function.update state.counting worker .nothing = fun _ => .nothing := by
    rw [hcounting]
    exact Function.update_eq_self worker _
  rcases hload with ⟨record, hfound, -⟩ | ⟨hempty, -⟩
  · refine ⟨[.countGet worker key, .load worker key, .countHit worker],
      ⟨workers, fun _ => .nothing, { state.metrics with
        dbGets := state.metrics.dbGets + 1, cacheHits := state.metrics.cacheHits + 1 }⟩,
      rfl, ?_, rfl, rfl⟩
    rw [Metered.run, runSteps_cons, hasked, Option.bind_some]
    simp [Metered.step, Metered.work, hstep, hfound, hback]
  · refine ⟨[.countGet worker key, .load worker key, .countMiss worker],
      ⟨workers, fun _ => .nothing, { state.metrics with
        dbGets := state.metrics.dbGets + 1, cacheMisses := state.metrics.cacheMisses + 1 }⟩,
      rfl, ?_, rfl, rfl⟩
    rw [Metered.run, runSteps_cons, hasked, Option.bind_some]
    simp [Metered.step, Metered.work, hstep, hempty, hback]

/-- So can it begin a put: it counts it, and stores the record. -/
theorem exists_counted_put {key val : Bytes} (hcounting : state.counting = fun _ => .nothing)
    (hstep : Workers.step hashes state.workers (.storeHot worker (kvRecord hashes key val)) =
      some workers) :
    ∃ counted after, counted.filterMap MeteredEvent.attributed? =
        [⟨.storeHot worker (kvRecord hashes key val), true⟩] ∧
      Metered.run hashes state counted = some after ∧ after.workers = workers ∧
        after.counting = fun _ => .nothing := by
  obtain ⟨hidle, -⟩ := Workers.step_cases hstep
  have hcountedPut : Metered.step hashes state (.countPut worker key val) = some { state with
      counting := Function.update state.counting worker (.putting (kvRecord hashes key val))
      metrics := { state.metrics with dbPuts := state.metrics.dbPuts + 1 } } :=
    if_pos ⟨by rw [hcounting], hidle⟩
  have hback : Function.update state.counting worker .nothing = fun _ => .nothing := by
    rw [hcounting]
    exact Function.update_eq_self worker _
  refine ⟨[.countPut worker key val, .store worker (kvRecord hashes key val)],
    ⟨workers, fun _ => .nothing, { state.metrics with dbPuts := state.metrics.dbPuts + 1 }⟩,
    rfl, ?_, rfl, rfl⟩
  rw [Metered.run, runSteps_cons, hcountedPut, Option.bind_some]
  simp [Metered.step, Metered.work, hstep, hback]

/-- Every step of the workers can be counted as what it is attributed to. -/
theorem exists_counted_step {attributed : Attributed W} (hfounded : attributed.IsFounded hashes)
    (hcounting : state.counting = fun _ => .nothing)
    (hstep : Workers.step hashes state.workers attributed.event = some workers) :
    ∃ counted after, counted.filterMap MeteredEvent.attributed? = [attributed] ∧
      Metered.run hashes state counted = some after ∧ after.workers = workers ∧
        after.counting = fun _ => .nothing := by
  obtain ⟨event, isFromPut⟩ := attributed
  cases isFromPut with
  | true =>
      obtain ⟨worker, key, val, rfl⟩ := hfounded rfl
      exact exists_counted_put hcounting hstep
  | false =>
      -- all but the first step of a get are one step of the same name
      have hsingle : ∀ counted : MeteredEvent W, counted.attributed? = some ⟨event, false⟩ →
          Metered.step hashes state counted = state.work hashes event state.counting →
            ∃ counted after, counted.filterMap MeteredEvent.attributed? = [⟨event, false⟩] ∧
              Metered.run hashes state counted = some after ∧ after.workers = workers ∧
                after.counting = fun _ => .nothing := by
        intro counted hattributed hcounted
        refine ⟨[counted], { state with workers := workers }, by simp [hattributed], ?_, rfl,
          hcounting⟩
        rw [Metered.run, runSteps_cons, hcounted, Metered.work, hstep]
        rfl
      have hnothing : ∀ worker, state.counting worker = .nothing := fun worker => by
        rw [hcounting]
      cases event with
      | storeHot worker record =>
          exact hsingle (.receive worker record) rfl (if_pos (hnothing worker))
      | sendInsert worker record => exact hsingle (.sendInsert worker record) rfl rfl
      | loadHot worker key => exact exists_counted_loadHot hcounting hstep
      | readColumns worker key =>
          exact hsingle (.readColumns worker key) rfl (if_pos (hnothing worker))
      | writerTurn => exact hsingle .writerTurn rfl rfl

end

/-- Workers who count store for a put the record of its key and value. -/
theorem isFounded_of_run {counted : List (MeteredEvent W)} {state : Metered W DB}
    (hrun : Metered.run hashes (Metered.start db) counted = some state) :
    ∀ attributed ∈ counted.filterMap MeteredEvent.attributed?, attributed.IsFounded hashes := by
  refine runSteps_induction (motive := fun counted (_ : Metered W DB) =>
    ∀ attributed ∈ counted.filterMap MeteredEvent.attributed?, attributed.IsFounded hashes)
    (by simp) ?_ hrun
  intro counted before event after hbefore ih hstep attributed hmem
  rw [filterMap_concat_eq_append] at hmem
  rcases List.mem_append.mp hmem with hearlier | hnew
  · exact ih attributed hearlier
  · intro hput
    cases event with
    | store worker record =>
        obtain ⟨hputting, -⟩ := Metered.step_cases hstep
        obtain ⟨key, val, rfl⟩ := Metered.putting_run hbefore hputting
        cases List.mem_singleton.mp hnew
        exact ⟨worker, key, val, rfl⟩
    | _ => simp [MeteredEvent.attributed?, MeteredEvent.inner?] at hnew <;> simp [hnew] at hput

/-- **Counting changes nothing.** The states that workers who count can reach are, their
counters aside, those that workers who do not can reach, by the same steps; and any of
their stores may have been asked for by clients' puts, and counted as such, so long as
what they store is the record of a key and a value. -/
theorem exists_counted_run_iff {events : List (Attributed W)} {workers : Workers W DB} :
    (∃ counted state, counted.filterMap MeteredEvent.attributed? = events ∧
      Metered.run hashes (Metered.start db) counted = some state ∧ state.workers = workers) ↔
    Workers.run hashes (Workers.start db) (events.map Attributed.event) = some workers ∧
      ∀ attributed ∈ events, attributed.IsFounded hashes := by
  constructor
  · rintro ⟨counted, state, rfl, hrun, rfl⟩
    rw [← MeteredEvent.filterMap_inner]
    exact ⟨Metered.workers_run hrun, isFounded_of_run hrun⟩
  rintro ⟨hrun, hfounded⟩
  have hcounted : ∃ counted state, counted.filterMap MeteredEvent.attributed? = events ∧
      Metered.run hashes (Metered.start db) counted = some state ∧ state.workers = workers ∧
        state.counting = fun _ => .nothing := by
    induction events using List.reverseRecOn generalizing workers with
    | nil =>
        cases hrun
        exact ⟨[], Metered.start db, rfl, rfl, rfl, rfl⟩
    | append_singleton events attributed ih =>
        rw [List.map_append, List.map_singleton] at hrun
        obtain ⟨before, hbefore, hstep⟩ := runSteps_concat_eq_some.mp hrun
        obtain ⟨counted, state, rfl, hstate, rfl, hcounting⟩ :=
          ih hbefore fun other hmem => hfounded other (List.mem_append_left _ hmem)
        obtain ⟨later, next, hlater, hnext, hworkers, hnothing⟩ :=
          exists_counted_step (hfounded attributed (by simp)) hcounting hstep
        exact ⟨counted ++ later, next, by rw [List.filterMap_append, hlater],
          runSteps_trans hstate hnext, hworkers, hnothing⟩
  obtain ⟨counted, state, hevents, hstate, hworkers, -⟩ := hcounted
  exact ⟨counted, state, hevents, hstate, hworkers⟩

/-! ## The accounts -/

/-- A get that is counted, but not yet as a hit or a miss. -/
def isInGet : Counting → Bool
  | .asked _ => true
  | .hit => true
  | .missed => true
  | _ => false

def isHit : Counting → Bool
  | .hit => true
  | _ => false

def isMissed : Counting → Bool
  | .missed => true
  | _ => false

def isPutting : Counting → Bool
  | .putting _ => true
  | _ => false

def isReading : Phase → Bool
  | .reading _ _ => true
  | _ => false

/-- An answer given from the slot, in one step. -/
def isWarm (answer : Answer W) : Bool := answer.started == answer.finished

/-- A put that stores its record. -/
def isStore : MeteredEvent W → Bool
  | .store _ _ => true
  | _ => false

variable [Fintype W]

/-- The counters against what has been done, with what is in flight. -/
structure CountersExact (events : List (MeteredEvent W)) (state : Metered W DB) : Prop where
  /-- Every get counted is a hit, a miss or in flight. -/
  gets : state.metrics.dbGets = state.metrics.cacheHits + state.metrics.cacheMisses +
    census isInGet state.counting
  /-- Every put counted has stored its record or is about to. -/
  puts : state.metrics.dbPuts = events.countP isStore + census isPutting state.counting
  /-- Every answer from the slot is a hit, counted or about to be. -/
  hits : state.metrics.cacheHits + census isHit state.counting =
    state.workers.answers.countP isWarm
  /-- Every miss, counted or about to be, has been answered from the columns or will
  be. -/
  misses : state.metrics.cacheMisses + census isMissed state.counting =
    state.workers.answers.countP (fun answer => !isWarm answer) +
      census isReading state.workers.phase

omit [Fintype W] in
/-- A worker reads the columns later than it found the slot empty. -/
theorem started_lt_clock {events : List (WorkerEvent W)} {state : Workers W DB}
    (hrun : Workers.run hashes (Workers.start db) events = some state) {worker : W} {key : Bytes}
    {started : Nat} (hreading : state.phase worker = .reading key started) :
    started < state.clock := by
  revert hreading
  refine runSteps_induction (motive := fun _ (state : Workers W DB) =>
    state.phase worker = .reading key started → started < state.clock) ?_ ?_ hrun
  · intro hreading
    cases hreading
  intro events before event after _ ih hstep hreading
  cases event with
  | storeHot other record =>
      obtain ⟨-, rfl⟩ := Workers.step_cases hstep
      exact Nat.lt_succ_of_lt (ih (Workers.phase_of_update (by simp) hreading))
  | sendInsert other record =>
      obtain ⟨-, rfl⟩ := Workers.step_cases hstep
      exact Nat.lt_succ_of_lt (ih (Workers.phase_of_update (by simp) hreading))
  | loadHot other asked =>
      obtain ⟨-, ⟨record, -, rfl⟩ | ⟨-, rfl⟩⟩ := Workers.step_cases hstep
      · exact Nat.lt_succ_of_lt (ih hreading)
      · dsimp only at hreading
        rw [Function.update_apply] at hreading
        split at hreading
        · cases hreading
          exact Nat.lt_succ_self _
        · exact Nat.lt_succ_of_lt (ih hreading)
  | readColumns other asked =>
      obtain ⟨since, -, rfl⟩ := Workers.step_cases hstep
      exact Nat.lt_succ_of_lt (ih (Workers.phase_of_update (by simp) hreading))
  | writerTurn =>
      cases Workers.step_cases hstep
      exact Nat.lt_succ_of_lt (ih hreading)

omit [DecidableEq W] [CdDB DB] in
theorem countersExact_start : CountersExact [] (Metered.start db : Metered W DB) where
  gets := by simp [Metered.start, census, total, isInGet]
  puts := by simp [Metered.start, census, total, isPutting]
  hits := by simp [Metered.start, Workers.start, census, total, isHit]
  misses := by simp [Metered.start, Workers.start, census, total, isMissed, isReading]

omit [CdDB DB] in
/-- What a worker counts next, in all accounts. -/
theorem census_recount (counting : W → Counting) (worker : W) {was : Counting}
    (hwas : counting worker = was) (next : Counting) :
    census isInGet (Function.update counting worker next) + (isInGet was).toNat =
        census isInGet counting + (isInGet next).toNat ∧
      census isPutting (Function.update counting worker next) + (isPutting was).toNat =
        census isPutting counting + (isPutting next).toNat ∧
      census isHit (Function.update counting worker next) + (isHit was).toNat =
        census isHit counting + (isHit next).toNat ∧
      census isMissed (Function.update counting worker next) + (isMissed was).toNat =
        census isMissed counting + (isMissed next).toNat := by
  subst hwas
  exact ⟨census_update .., census_update .., census_update .., census_update ..⟩

/-- What the workers do to the accounts: a get that finds a record answers warm, one
that does not goes on to read, and one that has read answers cold. -/
theorem workers_accounts {workers after : Workers W DB} {event : WorkerEvent W}
    (hstarted : ∀ worker key started, workers.phase worker = .reading key started →
      started < workers.clock)
    (hstep : Workers.step hashes workers event = some after) :
    match event with
    | .loadHot _ key =>
        match workers.store.loadHot hashes (hashes.sha256 key) with
        | some _ =>
            after.answers.countP isWarm = workers.answers.countP isWarm + 1 ∧
            after.answers.countP (fun answer => !isWarm answer) =
              workers.answers.countP (fun answer => !isWarm answer) ∧
            census isReading after.phase = census isReading workers.phase
        | none =>
            after.answers = workers.answers ∧
            census isReading after.phase = census isReading workers.phase + 1
    | .readColumns _ _ =>
        after.answers.countP isWarm = workers.answers.countP isWarm ∧
        after.answers.countP (fun answer => !isWarm answer) + census isReading after.phase =
          workers.answers.countP (fun answer => !isWarm answer) + census isReading workers.phase
    | _ =>
        after.answers = workers.answers ∧
        census isReading after.phase = census isReading workers.phase := by
  cases event with
  | storeHot worker record =>
      obtain ⟨hphase, rfl⟩ := Workers.step_cases hstep
      have hreading := census_update isReading workers.phase worker (.applying record)
      rw [hphase] at hreading
      exact ⟨rfl, hreading⟩
  | sendInsert worker record =>
      obtain ⟨hphase, rfl⟩ := Workers.step_cases hstep
      have hreading := census_update isReading workers.phase worker .idle
      rw [hphase] at hreading
      exact ⟨rfl, hreading⟩
  | loadHot worker key =>
      obtain ⟨hphase, ⟨record, hfound, rfl⟩ | ⟨hempty, rfl⟩⟩ := Workers.step_cases hstep
      · simp [hfound, isWarm]
      · have hreading := census_update isReading workers.phase worker (.reading key workers.clock)
        rw [hphase] at hreading
        simp only [hempty]
        exact ⟨trivial, hreading⟩
  | readColumns worker key =>
      obtain ⟨started, hphase, rfl⟩ := Workers.step_cases hstep
      have hreading := census_update isReading workers.phase worker .idle
      have hlt := hstarted worker key started hphase
      rw [hphase] at hreading
      simp only [isReading, Bool.toNat_true, Bool.toNat_false] at hreading
      have hcold : (started == workers.clock) = false := beq_eq_false_iff_ne.mpr hlt.ne
      simp only [List.countP_append, List.countP_singleton, isWarm, hcold]
      simp only [Bool.false_eq_true, Bool.not_false, if_true, if_false]
      omega
  | writerTurn =>
      cases Workers.step_cases hstep
      exact ⟨rfl, rfl⟩

omit [DecidableEq W] [CdDB DB] in
/-- A step that counts nothing and finishes no get leaves the accounts as they are. -/
theorem CountersExact.of_sameAnswers {events : List (MeteredEvent W)} {before : Metered W DB}
    (hexact : CountersExact events before) {event : MeteredEvent W} {workers : Workers W DB}
    (hstore : isStore event = false) (hanswers : workers.answers = before.workers.answers)
    (hreading : census isReading workers.phase = census isReading before.workers.phase) :
    CountersExact (events ++ [event]) { before with workers := workers } where
  gets := hexact.gets
  puts := by
    rw [List.countP_append, List.countP_singleton, hstore]
    exact hexact.puts
  hits := by
    rw [hanswers]
    exact hexact.hits
  misses := by
    rw [hanswers, hreading]
    exact hexact.misses

/-- A step keeps the accounts. -/
theorem CountersExact.step {events : List (MeteredEvent W)} {before after : Metered W DB}
    (hexact : CountersExact events before) {event : MeteredEvent W}
    (hstarted : ∀ worker key started, before.workers.phase worker = .reading key started →
      started < before.workers.clock)
    (hstep : Metered.step hashes before event = some after) :
    CountersExact (events ++ [event]) after := by
  have ⟨hgets, hputs, hhits, hmisses⟩ := hexact
  have hstored : (events ++ [event]).countP isStore =
      events.countP isStore + (isStore event).toNat := by
    cases hstore : isStore event <;> simp [hstore]
  cases event with
  | countGet worker key =>
      obtain ⟨hnothing, -, rfl⟩ := Metered.step_cases hstep
      obtain ⟨hget, hput, hhit, hmiss⟩ :=
        census_recount before.counting worker hnothing (.asked key)
      simp only [isInGet, isPutting, isHit, isMissed, isStore, Bool.toNat_true,
        Bool.toNat_false] at hget hput hhit hmiss hstored
      constructor <;> dsimp only <;> omega
  | countPut worker key val =>
      obtain ⟨hnothing, -, rfl⟩ := Metered.step_cases hstep
      obtain ⟨hget, hput, hhit, hmiss⟩ :=
        census_recount before.counting worker hnothing (.putting (kvRecord hashes key val))
      simp only [isInGet, isPutting, isHit, isMissed, isStore, Bool.toNat_true,
        Bool.toNat_false] at hget hput hhit hmiss hstored
      constructor <;> dsimp only <;> omega
  | load worker key =>
      obtain ⟨hasked, workers, hworkers, rfl⟩ := Metered.step_cases hstep
      have haccounts := workers_accounts hstarted hworkers
      dsimp only at haccounts
      cases hload : before.workers.store.loadHot hashes (hashes.sha256 key) with
      | some record =>
          obtain ⟨hget, hput, hhit, hmiss⟩ := census_recount before.counting worker hasked .hit
          simp only [isInGet, isPutting, isHit, isMissed, isStore, Bool.toNat_true,
            Bool.toNat_false] at hget hput hhit hmiss hstored
          rw [hload] at haccounts
          obtain ⟨hwarm, hcold, hreading⟩ := haccounts
          constructor <;> dsimp only <;> omega
      | none =>
          obtain ⟨hget, hput, hhit, hmiss⟩ := census_recount before.counting worker hasked .missed
          simp only [isInGet, isPutting, isHit, isMissed, isStore, Bool.toNat_true,
            Bool.toNat_false] at hget hput hhit hmiss hstored
          rw [hload] at haccounts
          obtain ⟨hanswers, hreading⟩ := haccounts
          constructor <;> dsimp only <;> (try rw [hanswers]) <;> omega
  | countHit worker =>
      obtain ⟨hwas, rfl⟩ := Metered.step_cases hstep
      obtain ⟨hget, hput, hhit, hmiss⟩ := census_recount before.counting worker hwas .nothing
      simp only [isInGet, isPutting, isHit, isMissed, isStore, Bool.toNat_true,
        Bool.toNat_false] at hget hput hhit hmiss hstored
      constructor <;> dsimp only <;> omega
  | countMiss worker =>
      obtain ⟨hwas, rfl⟩ := Metered.step_cases hstep
      obtain ⟨hget, hput, hhit, hmiss⟩ := census_recount before.counting worker hwas .nothing
      simp only [isInGet, isPutting, isHit, isMissed, isStore, Bool.toNat_true,
        Bool.toNat_false] at hget hput hhit hmiss hstored
      constructor <;> dsimp only <;> omega
  | store worker record =>
      obtain ⟨hwas, workers, hworkers, rfl⟩ := Metered.step_cases hstep
      obtain ⟨hget, hput, hhit, hmiss⟩ := census_recount before.counting worker hwas .nothing
      simp only [isInGet, isPutting, isHit, isMissed, isStore, Bool.toNat_true,
        Bool.toNat_false] at hget hput hhit hmiss hstored
      obtain ⟨hanswers, hreading⟩ := workers_accounts hstarted hworkers
      constructor <;> dsimp only <;> (try rw [hanswers]) <;> omega
  | receive worker record =>
      obtain ⟨-, workers, hworkers, rfl⟩ := Metered.step_cases hstep
      obtain ⟨hanswers, hreading⟩ := workers_accounts hstarted hworkers
      exact hexact.of_sameAnswers rfl hanswers hreading
  | sendInsert worker record =>
      obtain ⟨workers, hworkers, rfl⟩ := Metered.step_cases hstep
      obtain ⟨hanswers, hreading⟩ := workers_accounts hstarted hworkers
      exact hexact.of_sameAnswers rfl hanswers hreading
  | readColumns worker key =>
      obtain ⟨-, workers, hworkers, rfl⟩ := Metered.step_cases hstep
      obtain ⟨hwarm, hcold⟩ := workers_accounts hstarted hworkers
      simp only [isStore, Bool.toNat_false] at hstored
      constructor <;> dsimp only <;> omega
  | writerTurn =>
      obtain ⟨workers, hworkers, rfl⟩ := Metered.step_cases hstep
      obtain ⟨hanswers, hreading⟩ := workers_accounts hstarted hworkers
      exact hexact.of_sameAnswers rfl hanswers hreading

/-- **The counters are exact.** In every state of every run, what is in flight taken
into account; as the source shows them, modulo `2 ^ 64`. -/
theorem counters_exact {events : List (MeteredEvent W)} {state : Metered W DB}
    (hrun : Metered.run hashes (Metered.start db) events = some state) :
    CountersExact events state :=
  runSteps_induction (motive := fun events (state : Metered W DB) => CountersExact events state)
    countersExact_start (fun _ _ _ _ hbefore ih hstep =>
      ih.step (fun _ _ _ hreading => started_lt_clock (Metered.workers_run hbefore) hreading) hstep)
    hrun

/-- A get that has missed while another worker counts its put. -/
def missBesidePut : List (MeteredEvent Bool) :=
  [.countGet false keyA, .load false keyA, .countPut true keyA [1], .countMiss false]

theorem counters_exact_missBesidePut :
    ∃ state : Metered Bool (ReferenceDB 8),
      Metered.run sampleHashes (Metered.start ReferenceDB.empty) missBesidePut = some state ∧
        state.metrics = ⟨1, 1, 0, 1⟩ ∧ CountersExact missBesidePut state := by
  have hempty : (TieredStore.new (ReferenceDB.empty : ReferenceDB 8)).loadHot sampleHashes
      (sampleHashes.sha256 keyA) = none := by simp [TieredStore.loadHot]
  obtain ⟨state, hrun, hmetrics⟩ : ∃ state : Metered Bool (ReferenceDB 8),
      Metered.run sampleHashes (Metered.start ReferenceDB.empty) missBesidePut = some state ∧
        state.metrics = ⟨1, 1, 0, 1⟩ := by
    simp [missBesidePut, Metered.step, Metered.work, Workers.step, Metered.start, Workers.start,
      hempty]
  exact ⟨state, hrun, hmetrics, counters_exact hrun⟩

/-! ## Once a slot is stored -/

omit [Fintype W] in
/-- No step empties a slot. -/
theorem loadHot_isSome_of_step {workers after : Workers W DB} {event : WorkerEvent W}
    (hstep : Workers.step hashes workers event = some after) {hash : Hash32}
    (hfull : (workers.store.loadHot hashes hash).isSome) :
    (after.store.loadHot hashes hash).isSome := by
  cases event with
  | storeHot worker record =>
      obtain ⟨-, rfl⟩ := Workers.step_cases hstep
      dsimp only
      rw [TieredStore.loadHot, TieredStore.storeHot_hotIndex_get]
      split
      · rfl
      · exact hfull
  | sendInsert worker record =>
      obtain ⟨-, rfl⟩ := Workers.step_cases hstep
      dsimp only
      rw [TieredStore.loadHot, TieredStore.sendInsert_hotIndex]
      exact hfull
  | loadHot worker key =>
      obtain ⟨-, ⟨record, -, rfl⟩ | ⟨-, rfl⟩⟩ := Workers.step_cases hstep
      · exact hfull
      · exact hfull
  | readColumns worker key =>
      obtain ⟨started, -, rfl⟩ := Workers.step_cases hstep
      exact hfull
  | writerTurn =>
      cases Workers.step_cases hstep
      dsimp only
      rw [TieredStore.loadHot, TieredStore.backgroundWrite_hotIndex]
      exact hfull

/-- A get that loads its slot. -/
def isLoad : MeteredEvent W → Bool
  | .load _ _ => true
  | _ => false

/-- What has come of the gets: hits and misses, with those about to be counted. -/
def outcomes (state : Metered W DB) : Nat × Nat :=
  (state.metrics.cacheHits + census isHit state.counting,
    state.metrics.cacheMisses + census isMissed state.counting)

/-- A step makes nothing a miss unless it is the load of an empty slot. -/
theorem outcomes_of_step {before after : Metered W DB} {event : MeteredEvent W}
    (hstep : Metered.step hashes before event = some after)
    (hfull : ∀ worker key, event = .load worker key →
      (before.workers.store.loadHot hashes (hashes.sha256 key)).isSome) :
    outcomes after = ((outcomes before).1 + (isLoad event).toNat, (outcomes before).2) := by
  cases event with
  | countGet worker key =>
      obtain ⟨hwas, -, rfl⟩ := Metered.step_cases hstep
      obtain ⟨-, -, hhit, hmiss⟩ := census_recount before.counting worker hwas (.asked key)
      exact Prod.ext (congrArg (_ + ·) hhit) (congrArg (_ + ·) hmiss)
  | countPut worker key val =>
      obtain ⟨hwas, -, rfl⟩ := Metered.step_cases hstep
      obtain ⟨-, -, hhit, hmiss⟩ :=
        census_recount before.counting worker hwas (.putting (kvRecord hashes key val))
      exact Prod.ext (congrArg (_ + ·) hhit) (congrArg (_ + ·) hmiss)
  | load worker key =>
      obtain ⟨hwas, workers, -, rfl⟩ := Metered.step_cases hstep
      obtain ⟨record, hload⟩ := Option.isSome_iff_exists.mp (hfull worker key rfl)
      obtain ⟨-, -, hhit, hmiss⟩ := census_recount before.counting worker hwas .hit
      rw [hload]
      exact Prod.ext (congrArg (_ + ·) hhit) (congrArg (_ + ·) hmiss)
  | countHit worker =>
      obtain ⟨hwas, rfl⟩ := Metered.step_cases hstep
      obtain ⟨-, -, hhit, hmiss⟩ := census_recount before.counting worker hwas .nothing
      simp only [isHit, isMissed, Bool.toNat_true, Bool.toNat_false] at hhit hmiss
      simp only [outcomes, isLoad, Bool.toNat_false, Prod.mk.injEq]
      omega
  | countMiss worker =>
      obtain ⟨hwas, rfl⟩ := Metered.step_cases hstep
      obtain ⟨-, -, hhit, hmiss⟩ := census_recount before.counting worker hwas .nothing
      simp only [isHit, isMissed, Bool.toNat_true, Bool.toNat_false] at hhit hmiss
      simp only [outcomes, isLoad, Bool.toNat_false, Prod.mk.injEq]
      omega
  | store worker record =>
      obtain ⟨hwas, workers, -, rfl⟩ := Metered.step_cases hstep
      obtain ⟨-, -, hhit, hmiss⟩ := census_recount before.counting worker hwas .nothing
      exact Prod.ext (congrArg (_ + ·) hhit) (congrArg (_ + ·) hmiss)
  | receive worker record =>
      obtain ⟨-, workers, -, rfl⟩ := Metered.step_cases hstep
      rfl
  | sendInsert worker record =>
      obtain ⟨workers, -, rfl⟩ := Metered.step_cases hstep
      rfl
  | readColumns worker key =>
      obtain ⟨-, workers, -, rfl⟩ := Metered.step_cases hstep
      rfl
  | writerTurn =>
      obtain ⟨workers, -, rfl⟩ := Metered.step_cases hstep
      rfl

omit [Fintype W] in
/-- A slot that holds a record goes on to hold one. -/
theorem loadHot_isSome_of_run {before state : Metered W DB} {events : List (MeteredEvent W)}
    (hrun : Metered.run hashes before events = some state) {hash : Hash32}
    (hfull : (before.workers.store.loadHot hashes hash).isSome) :
    (state.workers.store.loadHot hashes hash).isSome := by
  refine runSteps_induction (motive := fun _ (state : Metered W DB) =>
    (state.workers.store.loadHot hashes hash).isSome) hfull ?_ hrun
  intro events middle event after _ ih hstep
  have hinner := Metered.step_inner hstep
  cases hevent : event.inner? with
  | some inner =>
      rw [hevent] at hinner
      exact loadHot_isSome_of_step hinner ih
  | none =>
      rw [hevent] at hinner
      rwa [hinner]

/-- **A slot misses only until it is first stored.** From a state on in which the slots
of all keys to be asked for hold a record, whatever else is put or delivered, every
get is a hit, and no miss is added. -/
theorem outcomes_of_stored {before state : Metered W DB} {events : List (MeteredEvent W)}
    (hrun : Metered.run hashes before events = some state)
    (hfull : ∀ worker key, .load worker key ∈ events →
      (before.workers.store.loadHot hashes (hashes.sha256 key)).isSome) :
    outcomes state = ((outcomes before).1 + events.countP isLoad, (outcomes before).2) := by
  revert hfull
  refine runSteps_induction (motive := fun events (state : Metered W DB) =>
    (∀ worker key, .load worker key ∈ events →
      (before.workers.store.loadHot hashes (hashes.sha256 key)).isSome) →
    outcomes state = ((outcomes before).1 + events.countP isLoad, (outcomes before).2))
    (fun _ => rfl) ?_ hrun
  intro events middle event after hmiddle ih hstep hfull
  have hthen := ih fun worker key hmem => hfull worker key (List.mem_append_left _ hmem)
  have hnow := outcomes_of_step hstep fun worker key hevent =>
    loadHot_isSome_of_run hmiddle
      (hfull worker key (hevent ▸ List.mem_append_right _ (List.mem_singleton_self _)))
  rw [hnow, hthen, List.countP_append]
  cases hload : isLoad event <;> simp [hload, Nat.add_assoc]

/-- A worker with a record in the slot it is asked for. -/
def warmWorker : Metered (Fin 1) (ReferenceDB 8) where
  workers :=
    { Workers.start (ReferenceDB.empty : ReferenceDB 8) with
      store := (TieredStore.new ReferenceDB.empty).storeHot sampleHashes
        (kvRecord sampleHashes keyA [1]) }
  counting _ := .nothing
  metrics := ⟨0, 0, 0, 0⟩

theorem outcomes_of_stored_warmWorker :
    ∃ state, Metered.run sampleHashes warmWorker [.countGet 0 keyA, .load 0 keyA] = some state ∧
      outcomes state = ((outcomes warmWorker).1 + 1, (outcomes warmWorker).2) := by
  have hload : warmWorker.workers.store.loadHot sampleHashes (sampleHashes.sha256 keyA) =
      some (kvRecord sampleHashes keyA [1]) := by
    rw [warmWorker, TieredStore.loadHot, TieredStore.storeHot_hotIndex_get, entityId_kvRecord,
      if_pos rfl]
    rfl
  have hcounting : warmWorker.counting 0 = .nothing := rfl
  have hphase : warmWorker.workers.phase 0 = .idle := rfl
  obtain ⟨state, hrun⟩ : ∃ state, Metered.run sampleHashes warmWorker
      [.countGet 0 keyA, .load 0 keyA] = some state := by
    simp [Metered.step, Metered.work, Workers.step, hload, hcounting, hphase]
  refine ⟨state, hrun, outcomes_of_stored hrun fun worker key hmem => ?_⟩
  simp only [List.mem_cons, reduceCtorEq, MeteredEvent.load.injEq, List.not_mem_nil, or_false,
    false_or] at hmem
  rw [hmem.2, hload]
  rfl

end ServerGo.Analysis
