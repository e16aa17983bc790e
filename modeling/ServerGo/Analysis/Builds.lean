/-
# What the choice of a store can change

On any two stores a server takes the same steps, sends the same frames, hands the
same records to the network and gives the same replies, but for what its gets
answer. The pure cache and the tiered store answer alike too, on a fresh start, so
that a client cannot tell which of them a server was built with. A build without a
store confirms puts as the others do and answers every get with nil.
-/

import ServerGo.Analysis.VmGate
import ServerGo.Gateway.Builds
import ServerGo.Gateway.TaskSteps
import ServerGo.Storage.PureCacheStore

namespace ServerGo.Analysis

open ServerGo.Gateway ServerGo.Math ServerGo.Storage

variable {S T : Type} [StateStore S] [StateStore T] {n : Nat}

/-- Nothing but the stores is different, and what was answered to gets. -/
structure SameButAnswers (state : Server S n) (other : Server T n) : Prop where
  task : state.task = other.task
  log : state.log.map (Entry.seen fun _ => none) = other.log.map (Entry.seen fun _ => none)
  broadcasts : state.world.broadcasts = other.world.broadcasts
  serial : state.world.serial = other.world.serial

/-- Nothing but the stores is different. -/
structure SameButStores (state : Server S n) (other : Server T n) : Prop where
  task : state.task = other.task
  log : state.log = other.log
  broadcasts : state.world.broadcasts = other.world.broadcasts
  serial : state.world.serial = other.world.serial

theorem optionRel_mono {α β : Type} {strong weak : α → β → Prop}
    (himp : ∀ first second, strong first second → weak first second) {first : Option α}
    {second : Option β} (hrel : Option.Rel strong first second) : Option.Rel weak first second := by
  cases hrel with
  | none => exact .none
  | some hstrong => exact .some (himp _ _ hstrong)

variable (hashes : Hashes) (settings : SecuritySettings) (broadcasts : List SignedRecord)
  (serial : Fin n → SerialChannel)

/-- Servers on any two stores run together, to someone who sees no answers. -/
theorem rel_run_unseen (storage : S) (other : T) (events : List (ServerEvent n)) :
    Option.Rel (Server.Alike (fun _ => none) (StorePair.unseen hashes S T).Rel)
      (Server.run hashes settings (Server.start ⟨storage, broadcasts, serial⟩) events)
      (Server.run hashes settings (Server.start ⟨other, broadcasts, serial⟩) events) := by
  have hstart : (Server.start ⟨storage, broadcasts, serial⟩ : Server S n).Alike (fun _ => none)
      (StorePair.unseen hashes S T).Rel (Server.start ⟨other, broadcasts, serial⟩) :=
    Server.alike_start ⟨trivial, rfl, rfl⟩
  exact (Server.bisimulation (StorePair.unseen hashes S T) settings).rel_run hstart events

omit [StateStore S] [StateStore T] in
theorem SameButAnswers.of_alike {Rel : S → T → Prop} {state : Server S n} {other : Server T n}
    (halike : state.Alike (fun _ => none) Rel other) : SameButAnswers state other where
  task := halike.task
  log := halike.log
  broadcasts := halike.world.broadcasts
  serial := halike.world.serial

variable {DB DB' : Type} [CdDB DB] [CdDB DB'] [LawfulCdDB DB']

/-- **The two stores cannot be told apart.** From a fresh start a server on the pure
cache and one on the tiered store take the same steps and give the same replies,
in every run, whatever hashes collide and whatever their queues refuse. -/
theorem run_pure_sameAs_tiered (db : DB) {cold : DB'} (hfresh : CdDB.IsFresh cold)
    (events : List (ServerEvent n)) :
    Option.Rel SameButStores
      (Server.run hashes settings
        (Server.start ⟨PureCacheStore.new db, broadcasts, serial⟩) events)
      (Server.run hashes settings
        (Server.start ⟨TieredStore.new cold, broadcasts, serial⟩) events) := by
  let pair : StorePair hashes id (PureCacheStore DB) (TieredStore DB') :=
    .ofRefinements (PureCacheStore.slotRefinement hashes) (TieredStore.slotRefinement hashes)
  have hrel : pair.Rel (PureCacheStore.new db) (TieredStore.new cold) :=
    ⟨SlotTable.empty, PureCacheStore.slotRefinement_new db, TieredStore.slotRefinement_new hfresh⟩
  have hstart : (Server.start ⟨PureCacheStore.new db, broadcasts, serial⟩ :
      Server (PureCacheStore DB) n).Alike id pair.Rel
        (Server.start ⟨TieredStore.new cold, broadcasts, serial⟩) :=
    Server.alike_start ⟨hrel, rfl, rfl⟩
  have hlog : ∀ log : List (Entry n), log.map (Entry.seen id) = log := by
    intro log
    rw [List.map_congr_left fun entry _ => Entry.seen_id entry, List.map_id']
  refine optionRel_mono (fun state other halike => ?_)
    ((Server.bisimulation pair settings).rel_run hstart events)
  have hlogs := halike.log
  rw [hlog, hlog] at hlogs
  exact ⟨halike.task, hlogs, halike.world.broadcasts, halike.world.serial⟩

/-- A put, and a get of its key behind it. -/
def putThenGet : List (ServerEvent n) :=
  [.arrive 0 0 (localPut "a" [1]), .act 0, .act 0, .arrive 1 0 ⟨.get "a", none⟩, .act 1]

theorem run_pure_sameAs_tiered_putThenGet :
    ∃ state other,
      Server.run sampleHashes ⟨false⟩
        (Server.start ⟨PureCacheStore.new (ReferenceDB.empty : ReferenceDB 0), [],
          twoChannels.serial⟩) putThenGet = some state ∧
      Server.run sampleHashes ⟨false⟩
        (Server.start ⟨TieredStore.new (ReferenceDB.empty : ReferenceDB 8), [],
          twoChannels.serial⟩) putThenGet = some other ∧
      state.log = other.log := by
  have hfresh : CdDB.IsFresh (ReferenceDB.empty : ReferenceDB 8) := ReferenceDB.isFresh_empty
  have hrel := run_pure_sameAs_tiered sampleHashes ⟨false⟩ [] twoChannels.serial
    (ReferenceDB.empty : ReferenceDB 0) hfresh putThenGet
  obtain ⟨state, hpure⟩ : ∃ state, Server.run sampleHashes ⟨false⟩
      (Server.start ⟨PureCacheStore.new (ReferenceDB.empty : ReferenceDB 0), [],
        twoChannels.serial⟩) putThenGet = some state := ⟨_, rfl⟩
  obtain ⟨other, htiered⟩ : ∃ other, Server.run sampleHashes ⟨false⟩
      (Server.start ⟨TieredStore.new (ReferenceDB.empty : ReferenceDB 8), [],
        twoChannels.serial⟩) putThenGet = some other := ⟨_, rfl⟩
  rw [hpure, htiered, Option.rel_some_some] at hrel
  exact ⟨state, other, hpure, htiered, hrel.log⟩

/-! ## The build without a store -/

/-- What a get of the mock store is answered. -/
theorem effectsOf_get_mock {events : List (ServerEvent n)} {mock : Server MockStore n}
    (hrun : Server.run hashes settings (Server.start ⟨⟨⟩, broadcasts, serial⟩) events = some mock)
    {id : Nat} {task : Task n} (htask : mock.task id = some task) {key : String}
    (hcmd : task.request.cmd = .get key) :
    ∀ effect ∈ effectsOf id mock.log, effect = .replied (.bulkString none) := by
  refine runSteps_induction (motive := fun _ (mock : Server MockStore n) =>
    ∀ id task key, mock.task id = some task → task.request.cmd = .get key →
      ∀ effect ∈ effectsOf id mock.log, effect = .replied (.bulkString none)) ?_ ?_ hrun id task
        key htask hcmd
  · intro id task key htask
    cases htask
  intro events before event after hbefore ih hstep id task key htask hcmd effect hmem
  cases Server.taskStep_of_step hstep id with
  | idle hsame heffects =>
      exact ih id task key (hsame ▸ htask) hcmd effect (heffects ▸ hmem)
  | spawned workerId request _ hnone _ heffects =>
      have hprogress := Server.progress_run hbefore id
      rw [hnone] at hprogress
      rw [heffects, show effectsOf id before.log = [] from hprogress] at hmem
      cases hmem
  | acted workerId request action rest happened _ hearlier houtcome hlater heffects =>
      cases hlater.symm.trans htask
      rw [heffects] at hmem
      rcases List.mem_append.mp hmem with hold | hnew
      · exact ih id _ key hearlier hcmd effect hold
      · -- the one action of a get asks the store, which has nothing
        have hprogress := Server.progress_run hbefore id
        rw [hearlier] at hprogress
        have haction := hprogress.mem_handler
        rw [handler, show request.cmd = .get key from hcmd] at haction
        rw [List.mem_singleton.mp haction] at houtcome
        cases houtcome
        exact List.mem_singleton.mp hnew

end ServerGo.Analysis
