/-
# What survives crashes

However many processes have run on a partition, and at whatever moment each was
killed, the columns are what a beginning of what each had accepted comes to, one
life after the other: no command is skipped while a later one is kept. Each process
reads and writes them under `AHasher` keys of its own. So a get answers with nothing
that was not stored for its key or next to it, or filed by an earlier process at the
very entity where this one looks.
-/

import ServerGo.Analysis.AtomicReads
import ServerGo.Analysis.TierOrder
import ServerGo.Storage.Lives

namespace ServerGo.Analysis

open ServerGo.Math ServerGo.Storage

variable {W DB : Type} [DecidableEq W] [CdDB DB] {hashes : Hashes} {db : DB} {lives : Lives DB}
  {processes : List (Life W)}

/-- The last of some commands that was filed under this entity. -/
def lastFiled (entityId : EntityId) (commands : List InsertFast) : Option InsertFast :=
  latest (fun command => if command.entityId = entityId then some command else none) commands

/-- The row of an entity after commands have been applied is that of the last one
filed under it. -/
theorem applyAll_eq_lastFiled (commands : List InsertFast) (recovered : EntityId → Row)
    (entityId : EntityId) :
    WriteBehind.applyAll InsertFast.entityId InsertFast.row commands recovered entityId =
      ((lastFiled entityId commands).map InsertFast.row).getD (recovered entityId) := by
  rw [WriteBehind.applyAll_apply, lastFiled, ← latest_map]
  congr 1
  refine latest_congr fun command _ => ?_
  split <;> rfl

variable [LawfulCdDB DB]

/-- **A beginning of each life survives.** After any processes, killed at any moments,
each with `AHasher` keys of its own, the next one answers a get with the row of the last
command among those that survive that was filed under the entity which its own keys
give, and with what was there on the first opening if there is none; and the commands
that survive are, of each process, a beginning of those it had accepted. -/
theorem get_after_crashes (hidle : CdDB.IsIdle db)
    (hrun : Lives.run hashes (Lives.start db) processes = some lives) :
    List.Forall₂ (· <+: ·) lives.applied lives.admitted ∧
      ∀ ahash key, L2Executor.get (hashes.withKeys ahash) (TieredStore.new lives.db) key =
        (((lastFiled (ahash (hashes.sha256 key)) lives.applied.flatten).map InsertFast.row).getD
          ((CdDB.contents db).rows (ahash (hashes.sha256 key)))).toSigned.map
            SignedRecord.value := by
  refine ⟨Lives.applied_prefix_run hrun, fun ahash key => ?_⟩
  have hempty : (TieredStore.new lives.db).loadHot (hashes.withKeys ahash)
      ((hashes.withKeys ahash).sha256 key) = none := by
    rw [TieredStore.loadHot, TieredStore.new_hotIndex_get]
    rfl
  rw [get_of_loadHot_eq_none hempty, TieredStore.readColumns]
  show (((CdDB.contents lives.db).rows (ahash (hashes.sha256 key))).toSigned).map _ = _
  rw [(Lives.contents_run hidle hrun).2, applyAll_eq_lastFiled]

/-- A process that had two puts accepted and was killed when one had been applied. -/
def killedHalfway (ahash : Hash32 → EntityId) : List (Life Bool) := [⟨ahash, uncrossed.take 5⟩]

/-- A process that draws the same keys finds the put that was applied; one with other
keys does not. -/
theorem get_after_crashes_killedHalfway :
    ∃ lives, Lives.run sampleHashes (Lives.start (ReferenceDB.empty : ReferenceDB 8))
        (killedHalfway sampleHashes.ahash) = some lives ∧
      lives.admitted.map List.length = [2] ∧
      L2Executor.get (sampleHashes.withKeys sampleHashes.ahash) (TieredStore.new lives.db) keyA =
        some [1] ∧
      L2Executor.get (sampleHashes.withKeys otherKeys) (TieredStore.new lives.db) keyA = none := by
  obtain ⟨lives, hrun, hadmitted, happlied⟩ : ∃ lives,
      Lives.run sampleHashes (Lives.start (ReferenceDB.empty : ReferenceDB 8))
        (killedHalfway sampleHashes.ahash) = some lives ∧
      lives.admitted.map List.length = [2] ∧
      lives.applied = [[(kvRecord sampleHashes keyA [1]).toInsertFast sampleHashes]] :=
    ⟨_, rfl, rfl, rfl⟩
  have hidle : CdDB.IsIdle (ReferenceDB.empty : ReferenceDB 8) := rfl
  refine ⟨lives, hrun, hadmitted, ?_, ?_⟩
  · rw [(get_after_crashes hidle hrun).2, happlied]
    decide
  · rw [(get_after_crashes hidle hrun).2, happlied]
    decide

/-! ## Where answers come from -/

/-- An answer in one life is the value of a record stored in the slot of its key, or
the recovered one. -/
theorem exists_of_answer (hidle : CdDB.IsIdle db) {events : List (WorkerEvent W)}
    {state : Workers W DB} (hrun : Workers.run hashes (Workers.start db) events = some state)
    {answer : Answer W} (hmem : answer ∈ state.answers) {value : Bytes}
    (hvalue : answer.value = some value) :
    (∃ record, Workers.Stored events record ∧
      hotSlot (hashes.entityId record) = keySlot hashes answer.key ∧ record.value = value) ∨
    ((CdDB.contents db).rows (hashes.ahash (hashes.sha256 answer.key))).toSigned.map
      SignedRecord.value = some value := by
  obtain ⟨earlier, event, before, hprefix, hbefore, -, hhow⟩ := exists_step_of_answer hrun hmem
  have hsubset : earlier ⊆ events := fun stored hstored =>
    hprefix.subset (List.mem_append_left _ hstored)
  rcases hhow with ⟨-, record, hload, hanswer⟩ | ⟨-, hanswer⟩
  · rw [loadHot_run hbefore] at hload
    obtain ⟨stored, hstored, hread⟩ := exists_mem_of_latest hload
    cases stored with
    | storeHot worker other =>
        obtain ⟨hslot, hsame⟩ := Option.ite_none_right_eq_some.mp hread
        cases hsame
        exact Or.inl ⟨record, ⟨worker, hsubset hstored⟩, hslot,
          Option.some.inj (hanswer.symm.trans hvalue)⟩
    | _ => cases hread
  · rw [hvalue, TieredStore.readColumns] at hanswer
    rcases (Workers.provenance_run hidle hbefore).rows
      (hashes.ahash (hashes.sha256 answer.key)) with
      hsame | ⟨record, ⟨worker, hstored⟩, hentity, hrow⟩
    · exact Or.inr (hsame ▸ hanswer.symm)
    · rw [hrow] at hanswer
      exact Or.inl ⟨record, ⟨worker, hsubset hstored⟩, by rw [hentity, hotSlot_ahash_sha256],
        (Option.some.inj hanswer).symm⟩

/-- **No answer out of thin air.** However many processes have run before and been
killed, a get that finds a value finds that of a record which its own process stored
in the slot of the key, or which an earlier one stored and filed, under the keys that it
had, where this one looks for the key, or which was there on the first opening. -/
theorem answers_traced (hidle : CdDB.IsIdle db)
    (hlives : Lives.run hashes (Lives.start db) processes = some lives) {life : Life W}
    {state : Workers W DB}
    (hrun : Workers.run (hashes.withKeys life.ahash) (Workers.start lives.db) life.events =
      some state)
    {answer : Answer W} (hmem : answer ∈ state.answers) {value : Bytes}
    (hvalue : answer.value = some value) :
    (∃ record, Workers.Stored life.events record ∧
      hotSlot ((hashes.withKeys life.ahash).entityId record) =
        keySlot (hashes.withKeys life.ahash) answer.key ∧ record.value = value) ∨
    (∃ earlier ∈ processes, ∃ record, Workers.Stored earlier.events record ∧
      (hashes.withKeys earlier.ahash).entityId record = life.ahash (hashes.sha256 answer.key) ∧
        record.value = value) ∨
    ((CdDB.contents db).rows (life.ahash (hashes.sha256 answer.key))).toSigned.map
      SignedRecord.value = some value := by
  obtain ⟨hreopened, hrows⟩ := Lives.contents_run hidle hlives
  rcases exists_of_answer hreopened hrun hmem hvalue with hown | hrecovered
  · exact Or.inl hown
  · rw [hrows, applyAll_eq_lastFiled] at hrecovered
    dsimp only [Hashes.withKeys] at hrecovered
    cases hlast : lastFiled (life.ahash (hashes.sha256 answer.key)) lives.applied.flatten with
    | none =>
        rw [hlast] at hrecovered
        exact Or.inr (Or.inr hrecovered)
    | some command =>
        obtain ⟨found, hfound, hread⟩ := exists_mem_of_latest hlast
        obtain ⟨hentity, hsame⟩ := Option.ite_none_right_eq_some.mp hread
        cases hsame
        obtain ⟨earlier, hearlier, record, hstored, rfl⟩ :=
          Lives.stored_of_applied hidle hlives hfound
        rw [hlast] at hrecovered
        exact Or.inr (Or.inl ⟨earlier, hearlier, record, hstored, hentity,
          Option.some.inj hrecovered⟩)

/-- Keys under which `b` has the entity that `a` has under `sampleHashes`. -/
def shiftedKeys (hash : Hash32) : EntityId := sampleHashes.ahash hash + 30

/-- After the process that was killed, one that draws the shifted keys answers a get of
`b` with what was put on `a`. -/
theorem answers_traced_shiftedKeys :
    ∃ lives, Lives.run sampleHashes (Lives.start (ReferenceDB.empty : ReferenceDB 8))
        (killedHalfway sampleHashes.ahash) = some lives ∧
      ∃ earlier ∈ killedHalfway sampleHashes.ahash, ∃ record,
        Workers.Stored earlier.events record ∧
        (sampleHashes.withKeys earlier.ahash).entityId record =
          shiftedKeys (sampleHashes.sha256 keyB) ∧ record.value = [1] := by
  let next : Life Bool := ⟨shiftedKeys, [.loadHot true keyB, .readColumns true keyB]⟩
  obtain ⟨lives, hlives, hrow⟩ : ∃ lives,
      Lives.run sampleHashes (Lives.start (ReferenceDB.empty : ReferenceDB 8))
        (killedHalfway sampleHashes.ahash) = some lives ∧
      ((CdDB.contents lives.db).rows (shiftedKeys (sampleHashes.sha256 keyB))).toSigned.map
        SignedRecord.value = some [1] := ⟨_, rfl, rfl⟩
  have hmiss : (TieredStore.new lives.db).loadHot (sampleHashes.withKeys next.ahash)
      ((sampleHashes.withKeys next.ahash).sha256 keyB) = none := by
    simp [TieredStore.loadHot]
  obtain ⟨state, hrun, hanswers⟩ : ∃ state : Workers Bool (ReferenceDB 8),
      Workers.run (sampleHashes.withKeys next.ahash) (Workers.start lives.db) next.events =
        some state ∧
      state.answers = [⟨true, keyB,
        ((CdDB.contents lives.db).rows (shiftedKeys (sampleHashes.sha256 keyB))).toSigned.map
          SignedRecord.value, 0, 1⟩] := by
    simp only [next, Workers.run, runSteps_cons, Workers.step, Workers.start, hmiss]
    exact ⟨_, rfl, rfl⟩
  rw [hrow] at hanswers
  have hmem : ⟨true, keyB, some [1], 0, 1⟩ ∈ state.answers :=
    hanswers ▸ List.mem_singleton_self _
  have hidle : CdDB.IsIdle (ReferenceDB.empty : ReferenceDB 8) := rfl
  rcases answers_traced hidle hlives hrun hmem rfl with
    ⟨record, ⟨worker, hstored⟩, -, -⟩ | hearlier | hfirst
  · simp [next] at hstored
  · exact ⟨lives, hlives, hearlier⟩
  · cases hfirst

end ServerGo.Analysis
