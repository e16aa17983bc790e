/-
# Flushing

A flush sleeps while others go on applying records and the background writer
takes what turns it takes. Whether all that was accepted before the flush is in
the columns when it returns is therefore a matter of the writer alone: it is so
exactly when the writer has had a turn for each command that was waiting.
-/

import ServerGo.Storage.Queries

namespace ServerGo.Analysis

open ServerGo.Math ServerGo.Storage

/-- What happens to a store some of whose callers flush. -/
inductive FlushEvent
  /-- A call that is not a flush. -/
  | other (call : Call)
  /-- A caller enters `flush` and goes to sleep. -/
  | flushStart (caller : Nat)
  /-- Its `flush` returns. -/
  | flushReturn (caller : Nat)
  deriving DecidableEq

namespace FlushEvent

/-- The call an event makes, if it makes one. -/
def call? : FlushEvent → Option Call
  | .other call => some call
  | _ => none

variable {DB : Type} [CdDB DB] (hashes : Hashes)

/-- The store after an event. -/
def perform (store : TieredStore DB) : FlushEvent → TieredStore DB
  | .other call => call.perform hashes store
  | .flushStart _ => store
  | .flushReturn _ => store.flush

/-- The store after a list of events, in order. -/
def run (store : TieredStore DB) (events : List FlushEvent) : TieredStore DB :=
  events.foldl (perform hashes) store

variable {hashes}

/-- Flushing leaves the store to the calls of others. -/
theorem run_eq (store : TieredStore DB) (events : List FlushEvent) :
    run hashes store events = Call.run hashes store (events.filterMap call?) := by
  induction events generalizing store with
  | nil => rfl
  | cons event events ih =>
      show run hashes (perform hashes store event) events = _
      cases event with
      | other call => exact ih _
      | flushStart caller => exact ih _
      | flushReturn caller => exact ih _

end FlushEvent

variable {hashes : Hashes} {DB : Type} [CdDB DB]

/-- The commands accepted in the course of a run. -/
def acceptedCommands (hashes : Hashes) (store : TieredStore DB) (events : List FlushEvent) :
    List InsertFast :=
  (TieredStore.accepted hashes store (events.filterMap FlushEvent.call?)).map
    (SignedRecord.toInsertFast hashes)

/-- The commands applied in the course of a run. -/
def appliedCommands (hashes : Hashes) (store : TieredStore DB) (events : List FlushEvent) :
    List InsertFast :=
  TieredStore.applied hashes store (events.filterMap FlushEvent.call?)

/-- The turns the background writer takes in the course of a run. -/
def writerTurns (events : List FlushEvent) : Nat :=
  (events.filterMap FlushEvent.call?).count .writerTurn

/-- The events of a flush that comes after others, with those during it. -/
def flushed (before during : List FlushEvent) (caller : Nat) : List FlushEvent :=
  before ++ .flushStart caller :: during ++ [.flushReturn caller]

theorem filterMap_flushed (before during : List FlushEvent) (caller : Nat) :
    (flushed before during caller).filterMap FlushEvent.call? =
      before.filterMap FlushEvent.call? ++ during.filterMap FlushEvent.call? := by
  simp [flushed, List.filterMap_cons, FlushEvent.call?]

variable [LawfulCdDB DB]

/-- **When flush is a barrier.** In any run, on any schedule of the writer, what
was accepted before a flush started has been applied when it returns if and only
if the writer took as many turns meanwhile as there were commands waiting. The
columns are those the applied commands leave. -/
theorem flush_isBarrier_iff {db : DB} (hidle : CdDB.IsIdle db) (before during : List FlushEvent)
    (caller : Nat) :
    (acceptedCommands hashes (TieredStore.new db) before <+:
        appliedCommands hashes (TieredStore.new db) (flushed before during caller) ↔
      (CdDB.contents (FlushEvent.run hashes (TieredStore.new db) before).db).pending.length ≤
        writerTurns during) ∧
    (CdDB.contents (FlushEvent.run hashes (TieredStore.new db)
        (flushed before during caller)).db).rows =
      WriteBehind.applyAll InsertFast.entityId InsertFast.row
        (appliedCommands hashes (TieredStore.new db) (flushed before during caller))
        (CdDB.contents db).rows := by
  constructor
  · have hwhole := TieredStore.applied_append_pending hashes (TieredStore.new db)
      (before.filterMap FlushEvent.call?)
    have hempty : (CdDB.contents (TieredStore.new db).db).pending = [] := hidle
    rw [hempty, List.nil_append] at hwhole
    rw [acceptedCommands, ← hwhole, appliedCommands, filterMap_flushed, TieredStore.applied_append,
      List.prefix_append_right_inj, TieredStore.pending_prefix_applied_iff, FlushEvent.run_eq]
    rfl
  · rw [FlushEvent.run_eq, TieredStore.rows_run]
    rfl

/-- A record of epoch 42 is applied, and the store flushed. -/
def applyThenFlush (during : List FlushEvent) : List FlushEvent :=
  flushed [.other (.apply ⟨42, [1, 2, 3], zeroSignature, 10⟩)] during 0

theorem flush_isBarrier_iff_oneTurn :
    ([⟨sampleHashes.ahash (sampleHashes.sha256 [1, 2, 3]), 42, 10, [1, 2, 3]⟩] <+:
        appliedCommands sampleHashes (TieredStore.new (IndexedDB.empty : IndexedDB 8))
          (applyThenFlush [.other .writerTurn]) ↔
      1 ≤ writerTurns [.other .writerTurn]) ∧
    (CdDB.contents (FlushEvent.run sampleHashes (TieredStore.new (IndexedDB.empty : IndexedDB 8))
        (applyThenFlush [.other .writerTurn])).db).rows =
      WriteBehind.applyAll InsertFast.entityId InsertFast.row
        (appliedCommands sampleHashes (TieredStore.new (IndexedDB.empty : IndexedDB 8))
          (applyThenFlush [.other .writerTurn])) (fun _ => Row.empty) :=
  flush_isBarrier_iff (show CdDB.IsIdle (IndexedDB.empty : IndexedDB 8) from rfl)
    [.other (.apply ⟨42, [1, 2, 3], zeroSignature, 10⟩)] [.other .writerTurn] 0

/-- A writer that takes no turn while the caller sleeps leaves the record in the
queue, and neither a query by epoch nor a read of the columns finds it. -/
theorem not_barrier_of_noTurn :
    ¬acceptedCommands sampleHashes (TieredStore.new (IndexedDB.empty : IndexedDB 8))
        [.other (.apply ⟨42, [1, 2, 3], zeroSignature, 10⟩)] <+:
      appliedCommands sampleHashes (TieredStore.new (IndexedDB.empty : IndexedDB 8))
        (applyThenFlush []) ∧
    (FlushEvent.run sampleHashes (TieredStore.new (IndexedDB.empty : IndexedDB 8))
      (applyThenFlush [])).getByEpoch 42 = [] ∧
    (FlushEvent.run sampleHashes (TieredStore.new (IndexedDB.empty : IndexedDB 8))
      (applyThenFlush [])).readColumns sampleHashes (sampleHashes.sha256 [1, 2, 3]) = none := by
  refine ⟨?_, rfl, rfl⟩
  decide

end ServerGo.Analysis
