/-
# Stores started on an empty partition

From a fresh start both stores refine the slot table, so they answer alike on
every run and both answer a key from the last put in its hot slot. A cell keeps
no key, so that put need not be on the key asked for: the answers are those of a
map exactly when no put of another key got in between.
-/

import ServerGo.Storage.Executor
import ServerGo.Storage.PureCacheStore
import ServerGo.Storage.TieredStore

namespace ServerGo.Analysis

open ServerGo.Math ServerGo.Storage

variable {hashes : Hashes} {DB DB' : Type} [CdDB DB] [CdDB DB']

/-! ## The two stores agree -/

/-- **The pure cache and the tiered store agree on a fresh start.** Fed the same
records, with turns of either writer anywhere and whatever either queue refuses,
they answer every query alike. -/
theorem getRecord_tiered_eq_pure [LawfulCdDB DB] {db : DB} (hfresh : CdDB.IsFresh db) (db' : DB')
    {tieredCalls pureCalls : List Call}
    (hsame : tieredCalls.filterMap (Call.record? hashes) =
      pureCalls.filterMap (Call.record? hashes)) (hash : Hash32) :
    StateStore.getRecord hashes (Call.run hashes (TieredStore.new db) tieredCalls) hash =
      StateStore.getRecord hashes (Call.run hashes (PureCacheStore.new db') pureCalls) hash := by
  have htiered := (TieredStore.slotRefinement hashes).rel_run
    (TieredStore.slotRefinement_new hfresh) tieredCalls
  have hpure := (PureCacheStore.slotRefinement hashes).rel_run
    (PureCacheStore.slotRefinement_new db') pureCalls
  rw [(TieredStore.slotRefinement hashes).getRecord_eq htiered, hsame,
    (PureCacheStore.slotRefinement hashes).getRecord_eq hpure]

/-- Colliding keys, a full queue on one side and a writer that is ahead on the
other: the answers still agree. -/
theorem getRecord_tiered_eq_pure_keyA :
    StateStore.getRecord collidingHashes
        (Call.run collidingHashes (TieredStore.new (ReferenceDB.empty : ReferenceDB 1))
          [.put keyA [1], .put keyB [2], .writerTurn]) (sampleSha256 keyA) =
      StateStore.getRecord collidingHashes
        (Call.run collidingHashes (PureCacheStore.new (ReferenceDB.empty : ReferenceDB 8))
          [.put keyA [1], .writerTurn, .put keyB [2]]) (sampleSha256 keyA) :=
  getRecord_tiered_eq_pure ReferenceDB.isFresh_empty _
    (by simp [Call.record?, List.filterMap_cons]) _

/-! ## The stores as maps -/

/-- The value a call puts on this key. -/
def putOn (key : Bytes) : Call → Option Bytes
  | .put other val => if other = key then some val else none
  | _ => none

/-- The key and the value a call puts in this slot. -/
def putIn (hashes : Hashes) (slot : Nat) : Call → Option (Bytes × Bytes)
  | .put key val => if keySlot hashes key = slot then some (key, val) else none
  | _ => none

/-- The value of the last put on exactly this key. -/
def lastPut (key : Bytes) (calls : List Call) : Option Bytes :=
  latest (putOn key) calls

/-- The last put in a slot, with the key it was on. -/
def lastPutInSlot (hashes : Hashes) (slot : Nat) (calls : List Call) : Option (Bytes × Bytes) :=
  latest (putIn hashes slot) calls

/-- Every get of a run returns the value of the last put on its key, and none
where there was no such put. -/
def AnswersAsMap (hashes : Hashes) {S : Type} [StateStore S] (start : S) (calls : List Call) :
    Prop :=
  ∀ earlier key, earlier ++ [.get key] <+: calls →
    L2Executor.get hashes (Call.run hashes start earlier) key = lastPut key earlier

/-- At every get of a run, the last put in the hot slot of its key, if there is
one, was on that key or wrote the value that key was last given. -/
def SlotsUndisturbed (hashes : Hashes) (calls : List Call) : Prop :=
  ∀ earlier key, earlier ++ [.get key] <+: calls →
    ∀ other val, lastPutInSlot hashes (keySlot hashes key) earlier = some (other, val) →
      other = key ∨ lastPut key earlier = some val

/-- In a run of client calls only puts reach a slot. -/
theorem lastInSlot_of_isLocal {calls : List Call} (hlocal : ∀ call ∈ calls, call.IsLocal)
    (slot : Nat) :
    lastInSlot hashes slot calls =
      (lastPutInSlot hashes slot calls).map fun put => kvRecord hashes put.1 put.2 := by
  rw [lastInSlot, lastPutInSlot, ← latest_map]
  apply latest_congr
  intro call hmem
  cases call with
  | put key val =>
      by_cases hslot : keySlot hashes key = slot <;> simp [Call.record?, putIn, hslot]
  | get key => rfl
  | apply record => exact (hlocal _ hmem).elim
  | writerTurn => rfl

/-- A get on either store reads the last put in the hot slot of its key. -/
theorem get_run_of_isLocal {S : Type} [StateStore S] (refinement : SlotRefinement hashes S)
    {start : S} (hstart : refinement.Rel start SlotTable.empty) {calls : List Call}
    (hlocal : ∀ call ∈ calls, call.IsLocal) (key : Bytes) :
    L2Executor.get hashes (Call.run hashes start calls) key =
      (lastPutInSlot hashes (keySlot hashes key) calls).map Prod.snd := by
  rw [L2Executor.get_eq_map, refinement.getRecord_run hstart, hotSlot_ahash_sha256,
    lastInSlot_of_isLocal hlocal]
  cases lastPutInSlot hashes (keySlot hashes key) calls <;> simp

/-- Whoever puts on a key puts in its slot. -/
theorem putOn_eq_none_of_putIn (call : Call) (key : Bytes)
    (hslot : putIn hashes (keySlot hashes key) call = none) : putOn key call = none := by
  cases call with
  | put other val =>
      have hne : other ≠ key := by
        rintro rfl
        simp [putIn] at hslot
      simp [putOn, hne]
  | get _ => rfl
  | apply _ => rfl
  | writerTurn => rfl

/-- A put that is last in the slot of its key is last on its key. -/
theorem lastPut_of_lastPutInSlot {calls : List Call} {key val : Bytes}
    (hlast : lastPutInSlot hashes (keySlot hashes key) calls = some (key, val)) :
    lastPut key calls = some val := by
  obtain ⟨call, -, hread, hfollow⟩ := latest_of_coarser
    (fun call _ hslot => putOn_eq_none_of_putIn call key hslot) hlast
  apply hfollow
  cases call with
  | put other written =>
      obtain ⟨-, hput⟩ := Option.ite_none_right_eq_some.mp hread
      cases hput
      simp [putOn]
  | get _ => cases hread
  | apply _ => cases hread
  | writerTurn => cases hread

/-- A slot no put reached has no put on any of its keys. -/
theorem lastPut_of_lastPutInSlot_eq_none {calls : List Call} {key : Bytes}
    (hnone : lastPutInSlot hashes (keySlot hashes key) calls = none) :
    lastPut key calls = none := by
  rw [lastPutInSlot, latest_eq_none_iff] at hnone
  exact latest_eq_none_iff.mpr fun call hmem =>
    putOn_eq_none_of_putIn call key (hnone call hmem)

/-- One get answers as the map does exactly when the slot it reads was not taken
over, or was taken over with the same value. -/
theorem get_run_eq_lastPut_iff {S : Type} [StateStore S] (refinement : SlotRefinement hashes S)
    {start : S} (hstart : refinement.Rel start SlotTable.empty) {calls : List Call}
    (hlocal : ∀ call ∈ calls, call.IsLocal) (key : Bytes) :
    L2Executor.get hashes (Call.run hashes start calls) key = lastPut key calls ↔
      ∀ other val, lastPutInSlot hashes (keySlot hashes key) calls = some (other, val) →
        other = key ∨ lastPut key calls = some val := by
  rw [get_run_of_isLocal refinement hstart hlocal]
  cases hlast : lastPutInSlot hashes (keySlot hashes key) calls with
  | none => simp [lastPut_of_lastPutInSlot_eq_none hlast]
  | some put =>
      obtain ⟨other, val⟩ := put
      constructor
      · rintro hsame _ _ ⟨⟩
        exact Or.inr hsame.symm
      · intro hundisturbed
        rcases hundisturbed other val rfl with rfl | hput
        · exact (lastPut_of_lastPutInSlot hlast).symm
        · exact hput.symm

/-- The same for a whole run. -/
theorem answersAsMap_iff_of_refinement {S : Type} [StateStore S]
    (refinement : SlotRefinement hashes S) {start : S}
    (hstart : refinement.Rel start SlotTable.empty) {calls : List Call}
    (hlocal : ∀ call ∈ calls, call.IsLocal) :
    AnswersAsMap hashes start calls ↔ SlotsUndisturbed hashes calls := by
  refine forall_congr' fun earlier => forall_congr' fun key => imp_congr_right fun hbefore => ?_
  refine get_run_eq_lastPut_iff refinement hstart (fun call hmem => hlocal call ?_) key
  exact hbefore.subset (List.mem_append_left _ hmem)

/-- **When the stores are maps.** Started empty, either store answers every get
of a run of puts, gets and writer turns with the last put on its key if and only
if no hot slot was disturbed where it was read. -/
theorem answersAsMap_iff_slotsUndisturbed [LawfulCdDB DB] {db : DB} (hfresh : CdDB.IsFresh db)
    (db' : DB') {calls : List Call} (hlocal : ∀ call ∈ calls, call.IsLocal) :
    (AnswersAsMap hashes (TieredStore.new db) calls ↔ SlotsUndisturbed hashes calls) ∧
      (AnswersAsMap hashes (PureCacheStore.new db') calls ↔ SlotsUndisturbed hashes calls) :=
  ⟨answersAsMap_iff_of_refinement _ (TieredStore.slotRefinement_new hfresh) hlocal,
    answersAsMap_iff_of_refinement _ (PureCacheStore.slotRefinement_new db') hlocal⟩

theorem answersAsMap_iff_slotsUndisturbed_keyA :
    (AnswersAsMap sampleHashes (TieredStore.new (ReferenceDB.empty : ReferenceDB 8))
        [.put keyA [], .put keyB [2], .get keyA] ↔
      SlotsUndisturbed sampleHashes [.put keyA [], .put keyB [2], .get keyA]) ∧
    (AnswersAsMap sampleHashes (PureCacheStore.new (ReferenceDB.empty : ReferenceDB 8))
        [.put keyA [], .put keyB [2], .get keyA] ↔
      SlotsUndisturbed sampleHashes [.put keyA [], .put keyB [2], .get keyA]) :=
  answersAsMap_iff_slotsUndisturbed ReferenceDB.isFresh_empty _ (by decide)

/-- Two keys with distinct SHA-256 hashes and distinct entities that share a hot
slot: after both were put, each store answers a get of the first with the value
of the second. -/
theorem not_answersAsMap_of_shared_slot :
    collidingHashes.sha256 keyA ≠ collidingHashes.sha256 keyB ∧
      ¬ AnswersAsMap collidingHashes (TieredStore.new (ReferenceDB.empty : ReferenceDB 8))
        [.put keyA [1], .put keyB [2], .get keyA] ∧
      ¬ AnswersAsMap collidingHashes (PureCacheStore.new (ReferenceDB.empty : ReferenceDB 8))
        [.put keyA [1], .put keyB [2], .get keyA] := by
  have hlocal : ∀ call ∈ [Call.put keyA [1], Call.put keyB [2]], call.IsLocal := by decide
  have hlast : lastPutInSlot collidingHashes (keySlot collidingHashes keyA)
      [.put keyA [1], .put keyB [2]] = some (keyB, [2]) := by decide
  refine ⟨by decide, fun hmap => ?_, fun hmap => ?_⟩
  · have hget := hmap [.put keyA [1], .put keyB [2]] keyA (List.prefix_rfl)
    rw [get_run_of_isLocal _ (TieredStore.slotRefinement_new ReferenceDB.isFresh_empty) hlocal,
      hlast] at hget
    revert hget
    decide
  · have hget := hmap [.put keyA [1], .put keyB [2]] keyA (List.prefix_rfl)
    rw [get_run_of_isLocal _ (PureCacheStore.slotRefinement_new _) hlocal, hlast] at hget
    revert hget
    decide

end ServerGo.Analysis
