/-
# Gets of concurrent workers

A get that finds its slot empty reads the columns later, and in between any
number of puts may pass it, in one order through the slot and in another through
the queue. What it can then find is still a value that was current while it was
under way: a row it reads was stored in the slot after the get had found the
slot empty, and at that moment it was the current one.
-/

import ServerGo.Storage.Workers

namespace ServerGo.Analysis

open ServerGo.Math ServerGo.Storage

variable {W DB : Type} [DecidableEq W] [CdDB DB] {hashes : Hashes}

/-- No record of another address was stored in the slot of this key. -/
def OwnsSlot (hashes : Hashes) (key : Bytes) (events : List (WorkerEvent W)) : Prop :=
  ∀ worker record, .storeHot worker record ∈ events →
    hotSlot (hashes.entityId record) = keySlot hashes key →
      hashes.address record.payload = hashes.sha256 key

/-- The value of a key after a trace: that of the last record stored at its
address, and the recovered one before there is any. -/
def currentValue (hashes : Hashes) (recovered : EntityId → Row) (key : Bytes)
    (events : List (WorkerEvent W)) : Option Bytes :=
  ((latest (WorkerEvent.storedAt hashes (hashes.sha256 key)) events).or
    (recovered (hashes.ahash (hashes.sha256 key))).toSigned).map SignedRecord.value

/-- The answer of a get was current at some moment between its first step and
its last. -/
def IsLinearized (hashes : Hashes) (recovered : EntityId → Row) (events : List (WorkerEvent W))
    (answer : Answer W) : Prop :=
  events[answer.started]? = some (.loadHot answer.worker answer.key) ∧
  (answer.finished = answer.started ∨
    events[answer.finished]? = some (.readColumns answer.worker answer.key)) ∧
  ∃ moment, answer.started ≤ moment ∧ moment ≤ answer.finished ∧
    answer.value = currentValue hashes recovered answer.key (events.take moment)

section

omit [DecidableEq W]

variable {key : Bytes} {events earlier : List (WorkerEvent W)}

theorem OwnsSlot.of_subset (howns : OwnsSlot hashes key events) (hsubset : earlier ⊆ events) :
    OwnsSlot hashes key earlier := fun worker record hmem =>
  howns worker record (hsubset hmem)

/-- In a slot of its own, what is stored at the address is what is stored in the
slot. -/
theorem latest_storedAt_eq (howns : OwnsSlot hashes key events) :
    latest (WorkerEvent.storedAt hashes (hashes.sha256 key)) events =
      latest (WorkerEvent.storedIn hashes (keySlot hashes key)) events := by
  apply latest_congr
  intro event hmem
  cases event with
  | storeHot worker record =>
      rw [WorkerEvent.storedAt, WorkerEvent.storedIn]
      by_cases haddress : hashes.address record.payload = hashes.sha256 key
      · have hslot : hotSlot (hashes.entityId record) = keySlot hashes key := by
          rw [Hashes.entityId, haddress, hotSlot_ahash_sha256]
        rw [if_pos haddress, if_pos hslot]
      · rw [if_neg haddress, if_neg fun hslot => haddress (howns worker record hmem hslot)]
  | sendInsert _ _ => rfl
  | loadHot _ _ => rfl
  | readColumns _ _ => rfl
  | writerTurn => rfl

/-- What a get that missed relies on: it took its first step at `started`, and
no record had been stored in its slot by then. -/
def IsMiss (hashes : Hashes) (events : List (WorkerEvent W)) (worker : W) (key : Bytes)
    (started : Nat) : Prop :=
  events[started]? = some (.loadHot worker key) ∧
    latest (WorkerEvent.storedIn hashes (keySlot hashes key)) (events.take started) = none

/-- What is taken at a time stays so when the trace grows. -/
theorem getElem?_concat_of_eq_some {position : Nat} {event : WorkerEvent W}
    (hevent : events[position]? = some event) (next : WorkerEvent W) :
    (events ++ [next])[position]? = some event := by
  obtain ⟨hlt, -⟩ := List.getElem?_eq_some_iff.mp hevent
  rw [List.getElem?_append_left hlt, hevent]

theorem IsMiss.concat {worker : W} {started : Nat} (hmiss : IsMiss hashes events worker key started)
    (next : WorkerEvent W) : IsMiss hashes (events ++ [next]) worker key started := by
  obtain ⟨hlt, -⟩ := List.getElem?_eq_some_iff.mp hmiss.1
  refine ⟨getElem?_concat_of_eq_some hmiss.1 next, ?_⟩
  rw [List.take_append_of_le_length hlt.le]
  exact hmiss.2

theorem IsLinearized.concat {recovered : EntityId → Row} {answer : Answer W}
    (hanswer : IsLinearized hashes recovered events answer) (next : WorkerEvent W) :
    IsLinearized hashes recovered (events ++ [next]) answer := by
  obtain ⟨hfirst, hlast, moment, hafter, hbefore, hvalue⟩ := hanswer
  have hlength : moment ≤ events.length := by
    refine hbefore.trans ?_
    rcases hlast with hsame | hread
    · obtain ⟨hlt, -⟩ := List.getElem?_eq_some_iff.mp hfirst
      exact hsame ▸ hlt.le
    · obtain ⟨hlt, -⟩ := List.getElem?_eq_some_iff.mp hread
      exact hlt.le
  refine ⟨getElem?_concat_of_eq_some hfirst next,
    hlast.imp_right fun hread => getElem?_concat_of_eq_some hread next,
    moment, hafter, hbefore, ?_⟩
  rw [List.take_append_of_le_length hlength]
  exact hvalue

end

/-- Every get that is between its steps has missed. -/
theorem isMiss_of_reading {db : DB} {events : List (WorkerEvent W)} {state : Workers W DB}
    (hrun : Workers.run hashes (Workers.start db) events = some state) {worker : W} {key : Bytes}
    {started : Nat} (hphase : state.phase worker = .reading key started) :
    IsMiss hashes events worker key started := by
  have hmisses : ∀ worker key started, state.phase worker = .reading key started →
      IsMiss hashes events worker key started := by
    refine runSteps_induction (motive := fun events (state : Workers W DB) =>
      ∀ worker key started, state.phase worker = .reading key started →
        IsMiss hashes events worker key started) ?_ ?_ hrun
    · intro worker key started hphase
      cases hphase
    intro events before event after hbefore ih hstep
    -- the worker of this step takes up something else than reading
    have hleft : ∀ (worker : W) (phase : Phase), (∀ key started, phase ≠ .reading key started) →
        ∀ other key started, Function.update before.phase worker phase other =
          .reading key started → IsMiss hashes (events ++ [event]) other key started := by
      intro worker phase hphase other key started hother
      exact (ih other key started
        (Workers.phase_of_update (hphase key started) hother)).concat event
    cases event with
    | storeHot worker record =>
        obtain ⟨-, rfl⟩ := Workers.step_cases hstep
        exact hleft worker _ fun _ _ hne => nomatch hne
    | sendInsert worker record =>
        obtain ⟨-, rfl⟩ := Workers.step_cases hstep
        exact hleft worker _ fun _ _ hne => nomatch hne
    | loadHot worker key =>
        obtain ⟨-, ⟨record, -, rfl⟩ | ⟨hload, rfl⟩⟩ := Workers.step_cases hstep
        · exact fun other asked started hother => (ih other asked started hother).concat _
        · intro other asked started hother
          simp only [Function.update_apply] at hother
          split at hother
          next hworker =>
              cases hother
              subst hworker
              rw [TieredStore.loadHot, Workers.hotRecord_run hbefore] at hload
              rw [IsMiss, Workers.clock_run hbefore]
              exact ⟨by simp, by simpa using hload⟩
          next => exact (ih other asked started hother).concat _
    | readColumns worker key =>
        obtain ⟨started, -, rfl⟩ := Workers.step_cases hstep
        exact hleft worker _ fun _ _ hne => nomatch hne
    | writerTurn =>
        cases Workers.step_cases hstep
        exact fun other asked started hother => (ih other asked started hother).concat _
  exact hmisses worker key started hphase

omit [DecidableEq W] in
/-- **What a late read of the columns finds.** The row is the recovered one,
which was current when the get found its slot empty, or that of a record stored
since, which was current when it was stored. -/
theorem exists_moment_of_readColumns {recovered : EntityId → Row} {events : List (WorkerEvent W)}
    {state : Workers W DB} (hprovenance : state.Provenance hashes recovered events) {worker : W}
    {key : Bytes} {started : Nat} (hmiss : IsMiss hashes events worker key started)
    (howns : OwnsSlot hashes key events) :
    ∃ moment, started ≤ moment ∧ moment ≤ events.length ∧
      (state.store.readColumns hashes (hashes.sha256 key)).map SignedRecord.value =
        currentValue hashes recovered key (events.take moment) := by
  obtain ⟨hlt, -⟩ := List.getElem?_eq_some_iff.mp hmiss.1
  rw [TieredStore.readColumns]
  rcases hprovenance.rows (hashes.ahash (hashes.sha256 key)) with
    hsame | ⟨record, ⟨writer, hmem⟩, hentity, hrow⟩
  · refine ⟨started, le_rfl, hlt.le, ?_⟩
    rw [hsame, currentValue, latest_storedAt_eq (howns.of_subset (List.take_subset _ _)),
      hmiss.2, Option.none_or]
  · have hslot : hotSlot (hashes.entityId record) = keySlot hashes key := by
      rw [hentity, hotSlot_ahash_sha256]
    obtain ⟨position, hposition⟩ := List.mem_iff_getElem?.mp hmem
    obtain ⟨hstored, -⟩ := List.getElem?_eq_some_iff.mp hposition
    -- the slot was still empty when the get looked, so the record came later
    have hlate : started ≤ position := by
      by_contra hearly
      have htaken : .storeHot writer record ∈ events.take started := by
        refine List.mem_iff_getElem?.mpr ⟨position, ?_⟩
        rw [List.getElem?_take_of_lt (by omega), hposition]
      have hempty := latest_eq_none_iff.mp hmiss.2 _ htaken
      rw [WorkerEvent.storedIn, if_pos hslot] at hempty
      cases hempty
    refine ⟨position + 1, by omega, hstored, ?_⟩
    have hlast : events.take (position + 1) =
        events.take position ++ [.storeHot writer record] := by
      rw [List.take_add_one, hposition, Option.toList_some]
    have hcurrent : latest (WorkerEvent.storedAt hashes (hashes.sha256 key))
        (events.take (position + 1)) = some record := by
      rw [hlast, latest_concat, WorkerEvent.storedAt, if_pos (howns writer record hmem hslot),
        Option.some_or]
    rw [hrow, currentValue, hcurrent]
    rfl

/-- A get that finds its slot occupied finds the current value. -/
theorem value_of_loadHot {db : DB} {recovered : EntityId → Row} {events : List (WorkerEvent W)}
    {state : Workers W DB} (hrun : Workers.run hashes (Workers.start db) events = some state)
    {key : Bytes} (howns : OwnsSlot hashes key events) {record : SignedRecord}
    (hload : state.store.loadHot hashes (hashes.sha256 key) = some record) :
    some record.value = currentValue hashes recovered key events := by
  rw [TieredStore.loadHot, Workers.hotRecord_run hrun, hotSlot_ahash_sha256,
    ← latest_storedAt_eq howns] at hload
  rw [currentValue, hload]
  rfl

/-- **Gets are linearizable key by key.** Any number of workers share a store
opened on any data; their steps and the turns of the writer interleave in any
order, and the queue may refuse any command. A get on a key whose hot slot no
record of another address was stored in returns a value that was current for the
key at some moment between its first step and its last. -/
theorem answers_linearized [LawfulCdDB DB] {db : DB} (hidle : CdDB.IsIdle db)
    {events : List (WorkerEvent W)} {state : Workers W DB}
    (hrun : Workers.run hashes (Workers.start db) events = some state) {key : Bytes}
    (howns : OwnsSlot hashes key events) :
    ∀ answer ∈ state.answers, answer.key = key →
      IsLinearized hashes (CdDB.contents db).rows events answer := by
  revert howns
  refine runSteps_induction (motive := fun events (state : Workers W DB) =>
    OwnsSlot hashes key events → ∀ answer ∈ state.answers, answer.key = key →
      IsLinearized hashes (CdDB.contents db).rows events answer) ?_ ?_ hrun
  · intro _ answer hmem
    cases hmem
  intro events before event after hbefore ih hstep howns
  have howned : OwnsSlot hashes key events := howns.of_subset (List.subset_append_left _ _)
  have hold : ∀ answer ∈ before.answers, answer.key = key →
      IsLinearized hashes (CdDB.contents db).rows (events ++ [event]) answer :=
    fun answer hmem hkey => (ih howned answer hmem hkey).concat event
  cases event with
  | storeHot worker record =>
      obtain ⟨-, rfl⟩ := Workers.step_cases hstep
      exact hold
  | sendInsert worker record =>
      obtain ⟨-, rfl⟩ := Workers.step_cases hstep
      exact hold
  | loadHot worker asked =>
      obtain ⟨-, ⟨record, hload, rfl⟩ | ⟨-, rfl⟩⟩ := Workers.step_cases hstep
      · intro answer hmem hkey
        rcases List.mem_append.mp hmem with hearlier | hnew
        · exact hold answer hearlier hkey
        · cases List.mem_singleton.mp hnew
          obtain rfl : asked = key := hkey
          refine ⟨?_, Or.inl rfl, before.clock, le_rfl, le_rfl, ?_⟩
          · simp [Workers.clock_run hbefore]
          · rw [Workers.clock_run hbefore, List.take_left]
            exact value_of_loadHot hbefore howned hload
      · exact hold
  | readColumns worker asked =>
      obtain ⟨started, hphase, rfl⟩ := Workers.step_cases hstep
      intro answer hmem hkey
      rcases List.mem_append.mp hmem with hearlier | hnew
      · exact hold answer hearlier hkey
      · cases List.mem_singleton.mp hnew
        obtain rfl : asked = key := hkey
        have hmiss := isMiss_of_reading hbefore hphase
        obtain ⟨moment, hafter, hlength, hvalue⟩ :=
          exists_moment_of_readColumns (Workers.provenance_run hidle hbefore) hmiss howned
        refine ⟨(hmiss.concat _).1, Or.inr ?_, moment, hafter, ?_, ?_⟩
        · simp [Workers.clock_run hbefore]
        · exact hlength.trans (Workers.clock_run hbefore).ge
        · rw [List.take_append_of_le_length hlength]
          exact hvalue
  | writerTurn =>
      cases Workers.step_cases hstep
      exact hold

/-- A get that is overtaken by two puts, which pass through the queue in the
other order than through the slot. -/
def overtaken : List (WorkerEvent (Fin 3)) :=
  [.loadHot 0 keyA, .storeHot 1 (kvRecord sampleHashes keyA [1]),
    .storeHot 2 (kvRecord sampleHashes keyA [2]), .sendInsert 2 (kvRecord sampleHashes keyA [2]),
    .sendInsert 1 (kvRecord sampleHashes keyA [1]), .writerTurn, .writerTurn,
    .readColumns 0 keyA]

theorem answers_overtaken :
    (Workers.run sampleHashes (Workers.start (ReferenceDB.empty : ReferenceDB 8)) overtaken).map
      Workers.answers = some [⟨0, keyA, some [1], 0, 7⟩] := by
  have hmiss : (TieredStore.new (ReferenceDB.empty : ReferenceDB 8)).loadHot sampleHashes
      (sampleHashes.sha256 keyA) = none := by simp [TieredStore.loadHot]
  simp only [overtaken, Workers.run, runSteps_cons, Workers.step, Workers.start, hmiss]
  rfl

/-- The overtaken get answers with the first put although the second is in the
slot, and the first was current while the get was under way. -/
theorem answers_linearized_overtaken :
    (Workers.run sampleHashes (Workers.start (ReferenceDB.empty : ReferenceDB 8)) overtaken).map
        Workers.answers = some [⟨0, keyA, some [1], 0, 7⟩] ∧
      IsLinearized sampleHashes (fun _ => Row.empty) overtaken ⟨0, keyA, some [1], 0, 7⟩ := by
  refine ⟨answers_overtaken, ?_⟩
  obtain ⟨state, hrun, hanswers⟩ := Option.map_eq_some_iff.mp answers_overtaken
  have howns : OwnsSlot sampleHashes keyA overtaken := by
    intro worker record hmem _
    simp only [overtaken, List.mem_cons, WorkerEvent.storeHot.injEq, reduceCtorEq, false_or,
      or_false, List.not_mem_nil] at hmem
    rcases hmem with ⟨-, rfl⟩ | ⟨-, rfl⟩ <;> exact address_kvRecord _ _ _
  have hidle : CdDB.IsIdle (ReferenceDB.empty : ReferenceDB 8) := rfl
  have hmem : ⟨0, keyA, some [1], 0, 7⟩ ∈ state.answers :=
    hanswers ▸ List.mem_singleton_self _
  exact answers_linearized hidle hrun howns _ hmem rfl

end ServerGo.Analysis
