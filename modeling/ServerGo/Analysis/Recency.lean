/-
# A server never goes back behind a put

From the moment at which a put has stored its slot, every get of that slot that begins
is replied to with what was last stored there: the put, or what has been put or has come
from the network after it. This needs no order among the commands that the writer is
sent. A client whose put has returned reads its own write or a later one, and never finds
a key gone that it has read or put before.
-/

import ServerGo.Analysis.ThreadReplies

namespace ServerGo.Analysis

open ServerGo.Gateway ServerGo.Math ServerGo.Storage

variable {DB : Type} {n : Nat} [CdDB DB] {hashes : Hashes} {settings : SecuritySettings} {db : DB}
  {serial : Fin n → SerialChannel} {earlier later : List (ThreadsEvent n)}
  {before middle state : Threads DB n}

/-- The last record stored in a slot, as a run goes on from a state. -/
def lastStored (hashes : Hashes) (settings : SecuritySettings) (slot : Nat) (state : Threads DB n)
    (events : List (ThreadsEvent n)) : Option SignedRecord :=
  latest (WorkerEvent.storedIn hashes slot) ((Threads.toWorkers hashes settings).trace state events)

/-- A put is at its first step, which stores its slot. -/
structure IsStoring (hashes : Hashes) (settings : SecuritySettings) (before middle : Threads DB n)
    (writer : Nat) (stored val : Bytes) : Prop where
  task : ∃ workerId request rest,
    before.gateway.task writer = some ⟨workerId, request, .put stored val :: rest⟩
  phase : before.phase writer = .idle
  step : Threads.step hashes settings before (.serve (.act writer)) = some middle

/-- To the store it is that. -/
theorem IsStoring.workerEvent {writer : Nat} {stored val : Bytes}
    (hstoring : IsStoring hashes settings before middle writer stored val) :
    Threads.workerEvent? hashes before (.serve (.act writer)) =
      some (.storeHot (.task writer) (kvRecord hashes stored val)) := by
  obtain ⟨workerId, request, rest, htask⟩ := hstoring.task
  rw [Threads.workerEvent?_put htask, hstoring.phase, Threads.putStep]
  simp

/-- What the slot holds after a put there. -/
theorem loadHot_after_put
    (hbefore : Threads.run hashes settings (Threads.start db serial) earlier = some before)
    {writer : Nat} {stored val : Bytes}
    (hstoring : IsStoring hashes settings before middle writer stored val)
    (hrun : Threads.run hashes settings middle later = some state) {key : Bytes}
    (hslot : keySlot hashes key = keySlot hashes stored) :
    state.workers.store.loadHot hashes (hashes.sha256 key) =
      some ((lastStored hashes settings (keySlot hashes stored) middle later).getD
        (kvRecord hashes stored val)) := by
  have hwhole : Threads.run hashes settings (Threads.start db serial)
      (earlier ++ .serve (.act writer) :: later) = some state := by
    refine runSteps_trans hbefore ?_
    rw [runSteps_cons, hstoring.step]
    exact hrun
  have hput : latest (WorkerEvent.storedIn hashes (keySlot hashes stored))
      [WorkerEvent.storeHot (Caller.task writer) (kvRecord hashes stored val)] =
        some (kvRecord hashes stored val) := by
    simp [latest, WorkerEvent.storedIn]
  have hmatching : (Threads.toWorkers hashes settings).matching before (.serve (.act writer)) =
      [.storeHot (.task writer) (kvRecord hashes stored val)] :=
    congrArg Option.toList hstoring.workerEvent
  rw [loadHot_run (Threads.workers_run hwhole), hslot, Threads.workersTrace,
    Simulation.trace_append _ hbefore, Simulation.trace_cons _ hstoring.step, hmatching,
    latest_append, latest_append, hput, ← lastStored]
  cases lastStored hashes settings (keySlot hashes stored) middle later <;> rfl

/-- So no get of that slot that begins then will miss. -/
theorem not_reading_after_put
    (hbefore : Threads.run hashes settings (Threads.start db serial) earlier = some before)
    {writer : Nat} {stored val : Bytes}
    (hstoring : IsStoring hashes settings before middle writer stored val)
    (hrun : Threads.run hashes settings middle later = some state) {key : Bytes}
    (hslot : keySlot hashes key = keySlot hashes stored) {reader started : Nat}
    (hreader : middle.phase reader = .idle) : state.phase reader ≠ .reading key started := by
  intro hreading
  obtain ⟨since, event, between, after, -, hbetween, hstep, hnot, hafter⟩ :=
    exists_step_of_not (motive := fun state : Threads DB n =>
      state.phase reader = .reading key started) (by simp [hreader]) hrun hreading
  rcases Threads.workers_cases hstep with ⟨-, hsame⟩ | ⟨inner, -, hworkers⟩
  · rw [Threads.phase, hsame] at hafter
    exact hnot hafter
  · have hempty := Workers.loadHot_eq_none_of_step hworkers hnot hafter
    rw [loadHot_after_put hbefore hstoring hbetween hslot] at hempty
    cases hempty

/-- **Reads follow writes.** In any run of the tasks, the threads of the network and the
writer, once a put has stored its slot, every get of a key of that slot that begins
afterwards is replied to with the value of the record that was last stored in the slot
since, and with the put's own if there is none: never with nil, and with no value from
before. -/
theorem reads_follow_writes
    (hbefore : Threads.run hashes settings (Threads.start db serial) earlier = some before)
    {writer : Nat} {stored val : Bytes}
    (hstoring : IsStoring hashes settings before middle writer stored val)
    (hrun : Threads.run hashes settings middle later = some state) {reader : Nat} {task : Task n}
    (htask : state.gateway.task reader = some task) {key : String}
    (hcmd : task.request.cmd = .get key)
    (hslot : keySlot hashes (utf8 key.toList) = keySlot hashes stored)
    (hreader : middle.phase reader = .idle) {payload : Option Bytes}
    (hnew : .task reader (.replied (.bulkString payload)) ∉ middle.gateway.log)
    (hreply : .task reader (.replied (.bulkString payload)) ∈ state.gateway.log) :
    ∃ since, since ++ [.serve (.act reader)] <+: later ∧
      payload = some ((lastStored hashes settings (keySlot hashes stored) middle since).elim val
        SignedRecord.value) := by
  have hmiddle : Threads.run hashes settings (Threads.start db serial)
      (earlier ++ [.serve (.act writer)]) = some middle :=
    runSteps_concat_eq_some.mpr ⟨before, hbefore, hstoring.step⟩
  obtain ⟨since, between, hbegins, hbetween, hfinds⟩ :=
    exists_finds hmiddle hrun htask hcmd hnew hreply
  refine ⟨since, hbegins, ?_⟩
  cases hfinds with
  | hot record _ hload =>
      rw [loadHot_after_put hbefore hstoring hbetween hslot, Option.some.injEq] at hload
      rw [← hload]
      cases lastStored hashes settings (keySlot hashes stored) middle since with
      | none => exact congrArg some (value_kvRecord ..)
      | some record => rfl
  | cold started hphase =>
      exact absurd hphase (not_reading_after_put hbefore hstoring hbetween hslot hreader)

/-- A put is about to store its slot, -/
def putArrives : List (ThreadsEvent 0) := [.serve (.arrive 1 1 (localPut "a" [1]))]

/-- and before it has sent its command, another overtakes it and is read. -/
def overtakenThenRead : List (ThreadsEvent 0) :=
  [.serve (.arrive 2 2 (localPut "a" [2])), .serve (.act 2), .serve (.arrive 0 0 ⟨.get "a", none⟩),
    .serve (.act 2), .serve (.act 0), .serve (.act 1)]

theorem reads_follow_writes_overtakenThenRead :
    ∃ middle state,
      Threads.run sampleHashes ⟨false⟩ noChannels (putArrives ++ [.serve (.act 1)]) =
        some middle ∧
      Threads.run sampleHashes ⟨false⟩ middle overtakenThenRead = some state ∧
      .task 0 (.replied (.bulkString (some [2]))) ∈ state.gateway.log ∧
      ∃ since, since ++ [.serve (.act 0)] <+: overtakenThenRead ∧
        some [2] = some ((lastStored sampleHashes ⟨false⟩
          (keySlot sampleHashes (utf8 "a".toList)) middle since).elim [1] SignedRecord.value) := by
  obtain ⟨before, hbefore, hwriter, hphase, middle, hput, hreader, hmiddle, state, hrun, htask,
      hlog⟩ :
      ∃ before, Threads.run sampleHashes ⟨false⟩ noChannels putArrives = some before ∧
      before.gateway.task 1 = some ⟨1, localPut "a" [1],
        [.put (utf8 "a".toList) [1], .reply (.simpleString "OK")]⟩ ∧ before.phase 1 = .idle ∧
      ∃ middle, Threads.step sampleHashes ⟨false⟩ before (.serve (.act 1)) = some middle ∧
        middle.phase 0 = .idle ∧ middle.gateway.log = [] ∧
      ∃ state, Threads.run sampleHashes ⟨false⟩ middle overtakenThenRead = some state ∧
        state.gateway.task 0 = some ⟨0, ⟨.get "a", none⟩, []⟩ ∧
        state.gateway.log = [.task 2 (.applied (utf8 "a".toList) [2]),
          .task 0 (.replied (.bulkString (some [2]))), .task 1 (.applied (utf8 "a".toList) [1])] :=
    ⟨_, rfl, rfl, rfl, _, rfl, rfl, rfl, _, rfl, rfl, rfl⟩
  have hreply : .task 0 (.replied (.bulkString (some [2]))) ∈ state.gateway.log := by
    simp [hlog]
  have hnew : .task 0 (.replied (.bulkString (some [2]))) ∉ middle.gateway.log := by
    simp [hmiddle]
  exact ⟨middle, state, runSteps_concat_eq_some.mpr ⟨before, hbefore, hput⟩, hrun, hreply,
    reads_follow_writes hbefore ⟨⟨_, _, _, hwriter⟩, hphase, hput⟩ hrun htask rfl rfl hreader hnew
      hreply⟩

end ServerGo.Analysis
