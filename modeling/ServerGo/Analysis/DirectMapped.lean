/-
# The hot index is a direct-mapped table

Whatever is set in an index that `new` has made, every access is in range, and a
hash is answered by the last record that was set under a hash congruent to it
modulo the capacity. The mask is what makes it so: of a power of two less one, it
takes the remainder, the powers 1 and 2 ^ 63 included.
-/

import Mathlib.Data.Nat.ModEq
import ServerGo.Math.History
import ServerGo.Math.Steps
import ServerGo.Storage.HotIndex

namespace ServerGo.Analysis

open ServerGo.Math ServerGo.Storage

/-- A call of `set`. -/
structure SetCall where
  hash : UInt64
  record : CachedRecord

/-- Two hashes that share a cell of a table of this capacity. -/
def Congruent (capacity stored hash : UInt64) : Prop :=
  stored.toNat ≡ hash.toNat [MOD capacity.toNat]

instance (capacity stored hash : UInt64) : Decidable (Congruent capacity stored hash) :=
  inferInstanceAs (Decidable (stored.toNat ≡ hash.toNat [MOD capacity.toNat]))

/-- The index after some calls of `set`, in order; `none` when one of them is out of
range. -/
def UncheckedHotIndex.setAll (start : UncheckedHotIndex) (calls : List SetCall) :
    Option UncheckedHotIndex :=
  runSteps (fun index call => index.set call.hash call.record) start calls

/-- An index is the direct-mapped table of the calls made: no access is out of range;
a hash reads the record of the last call congruent to it, and nothing if there is no
such call; and a call that is not congruent to it makes no difference. -/
structure IsDirectMapped (capacity : UInt64) (calls : List SetCall) (index : UncheckedHotIndex) :
    Prop where
  inRange : ∀ hash : UInt64, (hash &&& index.mask).toNat < index.table.size
  last : ∀ (hash : UInt64) (earlier later : List SetCall) (call : SetCall),
    calls = earlier ++ call :: later → Congruent capacity call.hash hash →
      (∀ other ∈ later, ¬Congruent capacity other.hash hash) →
        index.get hash = some (some call.record)
  none_iff : ∀ hash, index.get hash = some none ↔
    ∀ call ∈ calls, ¬Congruent capacity call.hash hash
  apart : ∀ (hash : UInt64) (call : SetCall) (after : UncheckedHotIndex),
    index.set call.hash call.record = some after → ¬Congruent capacity call.hash hash →
      after.get hash = index.get hash

/-- The record of a call that is congruent to the hash. -/
def SetCall.answers (capacity hash : UInt64) (call : SetCall) : Option CachedRecord :=
  if Congruent capacity call.hash hash then some call.record else none

variable {capacity : UInt64}

theorem get_set_congruent (index : GlobalHotIndex capacity.toNat) (call : SetCall)
    (hash : UInt64) :
    (index.set call.hash call.record).get hash =
      (call.answers capacity hash).or (index.get hash) := by
  rw [GlobalHotIndex.get_set, SetCall.answers]
  by_cases hcongruent : Congruent capacity call.hash hash
  · rw [if_pos hcongruent, Option.some_or]
    exact if_pos hcongruent
  · rw [if_neg hcongruent, Option.none_or]
    exact if_neg hcongruent

/-- An index with the invariant can be set any number of times, keeps the invariant,
and reads the last call that is congruent. -/
theorem setAll_toUnchecked (start : GlobalHotIndex capacity.toNat) (calls : List SetCall) :
    ∃ index : GlobalHotIndex capacity.toNat,
      UncheckedHotIndex.setAll start.toUnchecked calls = some index.toUnchecked ∧
      ∀ hash, index.get hash =
        (latest (SetCall.answers capacity hash) calls).or (start.get hash) := by
  induction calls using List.reverseRecOn with
  | nil => exact ⟨start, rfl, fun _ => rfl⟩
  | append_singleton calls call ih =>
      obtain ⟨index, hrun, hget⟩ := ih
      refine ⟨index.set call.hash call.record, ?_, fun hash => ?_⟩
      · exact runSteps_concat_eq_some.mpr ⟨_, hrun, index.set_toUnchecked call.hash call.record⟩
      · rw [get_set_congruent, hget, latest_concat, Option.or_assoc]

/-- An index that reads the last congruent call is the direct-mapped table. -/
theorem isDirectMapped_toUnchecked {index : GlobalHotIndex capacity.toNat} {calls : List SetCall}
    (hget : ∀ hash, index.get hash = latest (SetCall.answers capacity hash) calls) :
    IsDirectMapped capacity calls index.toUnchecked where
  inRange hash := index.size_toUnchecked.symm ▸ index.and_mask_lt hash
  last := by
    rintro hash earlier later call rfl hcongruent hlater
    rw [index.get_toUnchecked, hget]
    exact congrArg some (latest_of_last (if_pos hcongruent) fun other hmem =>
      if_neg (hlater other hmem))
  none_iff := by
    intro hash
    rw [index.get_toUnchecked, Option.some_inj, hget, latest_eq_none_iff]
    refine forall₂_congr fun call _ => ?_
    rw [SetCall.answers, ite_eq_right_iff]
    simp
  apart := by
    intro hash call after hset hcongruent
    rw [index.set_toUnchecked, Option.some_inj] at hset
    rw [← hset, GlobalHotIndex.get_toUnchecked, index.get_toUnchecked, get_set_congruent,
      SetCall.answers, if_neg hcongruent, Option.none_or]

/-- **The hot index is a direct-mapped table.** For every capacity that `new`
accepts, any calls of `set` go through, and the index they lead to is the
direct-mapped table of these calls. -/
theorem isDirectMapped_setAll {start : UncheckedHotIndex}
    (hnew : UncheckedHotIndex.new capacity = some start) (calls : List SetCall) :
    ∃ index, UncheckedHotIndex.setAll start calls = some index ∧
      IsDirectMapped capacity calls index := by
  rw [GlobalHotIndex.new_unchecked, Option.map_eq_some_iff] at hnew
  obtain ⟨checked, hchecked, rfl⟩ := hnew
  obtain ⟨index, hrun, hget⟩ := setAll_toUnchecked checked calls
  refine ⟨index.toUnchecked, hrun, isDirectMapped_toUnchecked fun hash => ?_⟩
  rw [hget, GlobalHotIndex.get_of_new hchecked, Option.or_none]

/-- Four cells, and two calls on one of them. -/
def collidingCalls : List SetCall :=
  [⟨5, ⟨1, 100, zeroSignature, [1, 2, 3]⟩⟩, ⟨9, ⟨2, 100, zeroSignature, [4, 5, 6]⟩⟩]

theorem isDirectMapped_setAll_collidingCalls :
    ∃ start, UncheckedHotIndex.new 4 = some start ∧
      ∃ index, UncheckedHotIndex.setAll start collidingCalls = some index ∧
        IsDirectMapped 4 collidingCalls index := by
  have hnew : UncheckedHotIndex.new 4 = some _ := if_pos ⟨2, rfl⟩
  exact ⟨_, hnew, isDirectMapped_setAll hnew collidingCalls⟩

end ServerGo.Analysis
