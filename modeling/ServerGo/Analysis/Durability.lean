/-
# What a client that was answered OK can rely on

A put is confirmed whether or not its command found room in the queue, and a
command that found none is gone: the value is served from the hot index until
the process ends and then an older one comes back. Nor does a command that was
applied help where the next process looks elsewhere: its `AHasher` keys are its
own, and it finds under a key what lies at the entity that they give, which is that
of the key in the process before only by chance. Which commands are admitted is
decided by the schedule of puts and writer turns alone.
-/

import ServerGo.Analysis.Restart
import ServerGo.Gateway.Server

namespace ServerGo.Analysis

open ServerGo.Gateway ServerGo.Math ServerGo.Storage

variable {n : Nat}

/-- The value an entry puts on this key, if its request is answered OK. -/
def acknowledgedOn (log : List (Entry n)) (key : Bytes) : Entry n → Option Bytes
  | .task id (.applied other val) =>
      if other = key ∧ .task id confirmation ∈ log then some val else none
  | _ => none

/-- The value of the last put on a key that was answered OK. -/
def lastAcknowledged (key : Bytes) (log : List (Entry n)) : Option Bytes :=
  latest (acknowledgedOn log key) log

/-- The puts of a schedule whose command finds fewer than `capacity` waiting, when
so many wait at its start: an admitted command adds one, a turn of the writer
takes one away. -/
def admittedPuts (capacity : Nat) : Nat → List Call → List (Bytes × Bytes)
  | _, [] => []
  | waiting, .put key val :: calls =>
      if waiting < capacity then (key, val) :: admittedPuts capacity (waiting + 1) calls
      else admittedPuts capacity waiting calls
  | waiting, .writerTurn :: calls => admittedPuts capacity (waiting - 1) calls
  | waiting, _ :: calls => admittedPuts capacity waiting calls

/-- The value of the last of some puts on a key that has this entity. -/
def lastFiledAt (hashes : Hashes) (entityId : EntityId) (puts : List (Bytes × Bytes)) :
    Option Bytes :=
  latest (fun put => if hashes.ahash (hashes.sha256 put.1) = entityId then some put.2 else none)
    puts

/-- The value that a process with these keys finds under a key, when the commands of
these puts were admitted before it: that of the last one filed at the entity it
computes for the key, and what was recovered there if there is none. -/
def foundAfter (hashes : Hashes) (keys : Hash32 → EntityId) (recovered : EntityId → Row)
    (puts : List (Bytes × Bytes)) (key : Bytes) : Option Bytes :=
  (lastFiledAt hashes (keys (hashes.sha256 key)) puts).or
    ((recovered (keys (hashes.sha256 key))).toSigned.map SignedRecord.value)

/-- The keys put have hashes of their own. -/
def KeysDistinct (hashes : Hashes) (calls : List Call) : Prop :=
  ∀ key val other stored, .put key val ∈ calls → .put other stored ∈ calls →
    hashes.ahash (hashes.sha256 key) = hashes.ahash (hashes.sha256 other) → key = other

variable {hashes : Hashes} {DB : Type} [CdDB DB]

/-- Only puts and turns of the writer reach the store through the server. -/
theorem isLocal_of_call? {entry : Entry n} {call : Call} (hcall : entry.call? = some call) :
    call.IsLocal := by
  rcases entry with ⟨id, effect⟩ | _ | channel | channel
  · cases effect <;> cases hcall
    trivial
  · cases hcall
    trivial
  · cases hcall
  · cases hcall

variable [LawfulCdDB DB] {capacity : Nat} [BoundedCdDB DB capacity]

/-- The commands a bounded queue accepts are those the schedule admits. -/
theorem accepted_eq_admittedPuts {calls : List Call} (hlocal : ∀ call ∈ calls, call.IsLocal)
    (store : TieredStore DB) :
    TieredStore.accepted hashes store calls =
      (admittedPuts capacity (CdDB.contents store.db).pending.length calls).map fun put =>
        kvRecord hashes put.1 put.2 := by
  induction calls generalizing store with
  | nil => rfl
  | cons call calls ih =>
      have hrest : ∀ other ∈ calls, other.IsLocal := fun other hmem =>
        hlocal other (List.mem_cons_of_mem _ hmem)
      cases call with
      | put key val =>
          have haccepts : store.accepts hashes (kvRecord hashes key val) = true ↔
              (CdDB.contents store.db).pending.length < capacity :=
            BoundedCdDB.trySend_isSome_iff store.db _
          have hafter : CdDB.contents
              (store.applySignedRecord hashes (kvRecord hashes key val)).db = _ :=
            TieredStore.applySignedRecord_contents store _
          rw [admittedPuts]
          show ((some (kvRecord hashes key val)).filter (store.accepts hashes)).toList ++
            TieredStore.accepted hashes (store.applySignedRecord hashes (kvRecord hashes key val))
              calls = _
          rw [ih hrest]
          by_cases hroom : (CdDB.contents store.db).pending.length < capacity
          · rw [if_pos (haccepts.mpr hroom)] at hafter
            rw [hafter, if_pos hroom, Option.filter_some_pos (haccepts.mpr hroom)]
            simp
          · rw [if_neg fun haccepted => hroom (haccepts.mp haccepted)] at hafter
            rw [hafter, if_neg hroom,
              Option.filter_some_neg
                (Bool.eq_false_iff.mpr fun haccepted => hroom (haccepts.mp haccepted))]
            simp
      | get key => exact ih hrest store
      | apply record => exact (hlocal _ (List.mem_cons_self ..)).elim
      | writerTurn =>
          have hafter : (CdDB.contents store.backgroundWrite.db).pending.length =
              (CdDB.contents store.db).pending.length - 1 := by
            rw [TieredStore.backgroundWrite_contents, WriteBehind.writeOne_pending,
              List.length_tail]
          rw [admittedPuts, ← hafter, ← ih hrest store.backgroundWrite]
          rfl

omit [CdDB DB] [LawfulCdDB DB] in
/-- The record that puts leave at an entity has the value of the last one filed there. -/
theorem lastOfEntity_puts (entityId : EntityId) (puts : List (Bytes × Bytes)) :
    (TieredStore.lastOfEntity hashes entityId
      (puts.map fun put => kvRecord hashes put.1 put.2)).map SignedRecord.value =
        lastFiledAt hashes entityId puts := by
  rw [TieredStore.lastOfEntity, latest_comp, ← latest_map, lastFiledAt]
  refine latest_congr fun put _ => ?_
  rw [entityId_kvRecord]
  split
  · exact congrArg some (value_kvRecord ..)
  · rfl

/-- After a drained run a restarted store answers a key with the last admitted put that
was filed where the new process looks, or with what was recovered there. -/
theorem get_restart_run {db : DB} (hidle : CdDB.IsIdle db) {calls : List Call}
    (hlocal : ∀ call ∈ calls, call.IsLocal)
    (hdrained : CdDB.IsIdle (Call.run hashes (TieredStore.new db) calls).db)
    (keys : Hash32 → EntityId) (key : Bytes) :
    L2Executor.get (hashes.withKeys keys) (Call.run hashes (TieredStore.new db) calls).restart
        key =
      foundAfter hashes keys (CdDB.contents db).rows (admittedPuts capacity 0 calls) key := by
  have hstart : (CdDB.contents (TieredStore.new db).db).pending.length = 0 :=
    congrArg List.length hidle
  have haccepted : TieredStore.accepted hashes (TieredStore.new db) calls =
      (admittedPuts capacity 0 calls).map fun put => kvRecord hashes put.1 put.2 := by
    rw [← hstart]
    exact accepted_eq_admittedPuts hlocal _
  have hrows : (TieredStore.new db).settledRows = (CdDB.contents db).rows :=
    TieredStore.settledRows_of_isIdle hidle
  rw [L2Executor.get_eq_map]
  show ((Call.run hashes (TieredStore.new db) calls).restart.getRecord (hashes.withKeys keys)
    (hashes.sha256 key)).map _ = _
  rw [getRecord_restart hdrained, TieredStore.settledRows_run, haccepted, hrows, foundAfter,
    ← lastOfEntity_puts]
  dsimp only [Hashes.withKeys]
  cases TieredStore.lastOfEntity hashes (keys (hashes.sha256 key))
    ((admittedPuts capacity 0 calls).map fun put => kvRecord hashes put.1 put.2) <;> rfl

/-- **Which acknowledged puts survive a restart.** Requests run through a server
whose store was opened on any data, with a queue of any capacity, in any order
with the turns of the writer. Once the queue is drained and the process restarted,
with whatever keys the new one draws, every key holds the value of the last put on it
that was answered OK if and only if, for every such key, that is the value of the last
put that found room in the queue among those filed where the new process looks for
the key, or none was filed there and it is what had been recovered there. -/
theorem acknowledged_survive_iff (hashes : Hashes) (keys : Hash32 → EntityId)
    (settings : SecuritySettings) {world : World (TieredStore DB) n} {db : DB}
    (hstart : world.storage = TieredStore.new db) (hidle : CdDB.IsIdle db)
    {events : List (ServerEvent n)} {state : Server (TieredStore DB) n}
    (hrun : Server.run hashes settings (Server.start world) events = some state)
    (hdrained : CdDB.IsIdle state.world.storage.db) :
    (∀ key val, lastAcknowledged key state.log = some val →
      L2Executor.get (hashes.withKeys keys) state.world.storage.restart key = some val) ↔
    (∀ key val, lastAcknowledged key state.log = some val →
      foundAfter hashes keys (CdDB.contents db).rows
        (admittedPuts capacity 0 (state.log.filterMap Entry.call?)) key = some val) := by
  have hstorage : state.world.storage =
      Call.run hashes (TieredStore.new db) (state.log.filterMap Entry.call?) := by
    rw [Server.world_run hrun, World.storage_replayAll, hstart]
  have hlocal : ∀ call ∈ state.log.filterMap Entry.call?, call.IsLocal := by
    intro call hmem
    obtain ⟨entry, -, hcall⟩ := List.mem_filterMap.mp hmem
    exact isLocal_of_call? hcall
  rw [hstorage] at hdrained ⊢
  have hread (key : Bytes) : L2Executor.get (hashes.withKeys keys)
      (Call.run hashes (TieredStore.new db) _).restart key =
        foundAfter hashes keys _ (admittedPuts capacity 0 _) key :=
    get_restart_run hidle hlocal hdrained keys key
  simp only [hread]

/-- A server with no serial channels, on an empty partition. -/
def emptyWorld (capacity : Nat) : World (TieredStore (ReferenceDB capacity)) 0 where
  storage := TieredStore.new ReferenceDB.empty
  broadcasts := []
  serial channel := channel.elim0

/-- A put that is answered and applied. -/
def onePut : List (ServerEvent 0) :=
  [.arrive 0 0 ⟨.put "a" [1], none⟩, .act 0, .act 0, .writerTurn]

/-- Two puts on one key, both answered before the writer has its turn. -/
def twoPuts : List (ServerEvent 0) :=
  [.arrive 0 0 ⟨.put "a" [1], none⟩, .act 0, .act 0,
    .arrive 1 0 ⟨.put "a" [2], none⟩, .act 1, .act 1, .writerTurn, .writerTurn]

theorem acknowledged_survive_iff_twoPuts :
    ∃ state, Server.run sampleHashes ⟨false⟩ (Server.start (emptyWorld 2)) twoPuts = some state ∧
      ((∀ key val, lastAcknowledged key state.log = some val →
        L2Executor.get (sampleHashes.withKeys otherKeys) state.world.storage.restart key =
          some val) ↔
      (∀ key val, lastAcknowledged key state.log = some val →
        foundAfter sampleHashes otherKeys (fun _ => Row.empty)
          (admittedPuts 2 0 (state.log.filterMap Entry.call?)) key = some val)) := by
  obtain ⟨state, hrun, hdrained⟩ : ∃ state,
      Server.run sampleHashes ⟨false⟩ (Server.start (emptyWorld 2)) twoPuts = some state ∧
      CdDB.IsIdle state.world.storage.db := ⟨_, rfl, rfl⟩
  have hidle : CdDB.IsIdle (ReferenceDB.empty : ReferenceDB 2) := rfl
  exact ⟨state, hrun,
    acknowledged_survive_iff sampleHashes otherKeys ⟨false⟩ rfl hidle hrun hdrained⟩

/-- What one key has been put under can be no other key's. -/
theorem keysDistinct_of_keyA {calls : List Call}
    (hcalls : ∀ key val, .put key val ∈ calls → key = keyA) : KeysDistinct hashes calls :=
  fun key val other stored hput hother _ =>
    (hcalls key val hput).trans (hcalls other stored hother).symm

/-- A value that was answered OK and applied is not found by a process with other keys;
and with room for one command the second of two puts is answered OK and dropped, and
the first value comes back even where the keys happen to be the same. -/
theorem not_survives_of_otherKeys_of_full_queue :
    (∃ state, Server.run sampleHashes ⟨false⟩ (Server.start (emptyWorld 8)) onePut = some state ∧
      KeysDistinct sampleHashes (state.log.filterMap Entry.call?) ∧
      KeysDistinct (sampleHashes.withKeys otherKeys) (state.log.filterMap Entry.call?) ∧
      CdDB.IsIdle state.world.storage.db ∧
      lastAcknowledged keyA state.log = some [1] ∧
      L2Executor.get (sampleHashes.withKeys otherKeys) state.world.storage.restart keyA = none) ∧
    ∃ state, Server.run sampleHashes ⟨false⟩ (Server.start (emptyWorld 1)) twoPuts = some state ∧
      KeysDistinct sampleHashes (state.log.filterMap Entry.call?) ∧
      CdDB.IsIdle state.world.storage.db ∧
      lastAcknowledged keyA state.log = some [2] ∧
      L2Executor.get (sampleHashes.withKeys sampleHashes.ahash) state.world.storage.restart
        keyA = some [1] := by
  constructor
  · obtain ⟨state, hrun, hcalls, hdrained, hlast⟩ : ∃ state,
        Server.run sampleHashes ⟨false⟩ (Server.start (emptyWorld 8)) onePut = some state ∧
        state.log.filterMap Entry.call? = [.put keyA [1], .writerTurn] ∧
        CdDB.IsIdle state.world.storage.db ∧ lastAcknowledged keyA state.log = some [1] :=
      ⟨_, rfl, rfl, rfl, rfl⟩
    have hkeys : ∀ key val, .put key val ∈ state.log.filterMap Entry.call? → key = keyA := by
      simp [hcalls]
    refine ⟨state, hrun, keysDistinct_of_keyA hkeys, keysDistinct_of_keyA hkeys, hdrained,
      hlast, ?_⟩
    have hidle : CdDB.IsIdle (ReferenceDB.empty : ReferenceDB 8) := rfl
    have hstorage : state.world.storage =
        Call.run sampleHashes (TieredStore.new ReferenceDB.empty) [.put keyA [1], .writerTurn] := by
      rw [Server.world_run hrun, World.storage_replayAll, hcalls]
      rfl
    rw [hstorage] at hdrained ⊢
    calc L2Executor.get (sampleHashes.withKeys otherKeys) _ keyA
      _ = foundAfter sampleHashes otherKeys (CdDB.contents ReferenceDB.empty).rows
          (admittedPuts 8 0 [.put keyA [1], .writerTurn]) keyA :=
        get_restart_run hidle (by decide) hdrained otherKeys keyA
      _ = none := by decide
  · obtain ⟨state, hrun, hcalls, hdrained, hlast⟩ : ∃ state,
        Server.run sampleHashes ⟨false⟩ (Server.start (emptyWorld 1)) twoPuts = some state ∧
        state.log.filterMap Entry.call? =
          [.put keyA [1], .put keyA [2], .writerTurn, .writerTurn] ∧
        CdDB.IsIdle state.world.storage.db ∧ lastAcknowledged keyA state.log = some [2] :=
      ⟨_, rfl, rfl, rfl, rfl⟩
    have hkeys : ∀ key val, .put key val ∈ state.log.filterMap Entry.call? → key = keyA := by
      intro key val hmem
      simp [hcalls] at hmem
      tauto
    refine ⟨state, hrun, keysDistinct_of_keyA hkeys, hdrained, hlast, ?_⟩
    have hidle : CdDB.IsIdle (ReferenceDB.empty : ReferenceDB 1) := rfl
    have hstorage : state.world.storage = Call.run sampleHashes (TieredStore.new ReferenceDB.empty)
        [.put keyA [1], .put keyA [2], .writerTurn, .writerTurn] := by
      rw [Server.world_run hrun, World.storage_replayAll, hcalls]
      rfl
    rw [hstorage] at hdrained ⊢
    calc L2Executor.get (sampleHashes.withKeys sampleHashes.ahash) _ keyA
      _ = foundAfter sampleHashes sampleHashes.ahash (CdDB.contents ReferenceDB.empty).rows
          (admittedPuts 1 0 [.put keyA [1], .put keyA [2], .writerTurn, .writerTurn]) keyA :=
        get_restart_run hidle (by decide) hdrained sampleHashes.ahash keyA
      _ = some [1] := by decide

end ServerGo.Analysis
