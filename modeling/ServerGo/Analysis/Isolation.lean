/-
# Records from elsewhere and the answers of clients

Peers and consensus apply records of any type, and all of them share one address
space with the key-value records. The type is consulted only when a record is
read: it decides whether the 32-byte header is cut off, not whether the record
may answer a key. So a foreign record at the address of a key does answer that
key, and a foreign record changes no answer as long as no key is read while the
last record at its address is foreign.
-/

import Mathlib.Tactic.IntervalCases
import ServerGo.Storage.TieredRun

namespace ServerGo.Analysis

open ServerGo.Math ServerGo.Storage

variable {hashes : Hashes} {DB : Type} [CdDB DB]

/-- Whether a call is a put or a get of a client. -/
def isClientCall : Call → Bool
  | .put _ _ => true
  | .get _ => true
  | _ => false

/-- The puts and gets of a run. -/
def clientCalls (calls : List Call) : List Call := calls.filter isClientCall

/-- What a call returns to the client, if it is a get. -/
def answer (hashes : Hashes) {S : Type} [StateStore S] (storage : S) :
    Call → List (Option Bytes)
  | .get key => [L2Executor.get hashes storage key]
  | _ => []

/-- What the gets of a run return, in order. -/
def answers (hashes : Hashes) {S : Type} [StateStore S] (storage : S) :
    List Call → List (Option Bytes)
  | [] => []
  | call :: rest => answer hashes storage call ++ answers hashes (call.perform hashes storage) rest

/-- The address a call reads or writes. -/
def addressOf (hashes : Hashes) : Call → Option Hash32
  | .put key _ => some (hashes.sha256 key)
  | .get key => some (hashes.sha256 key)
  | .apply record => some (hashes.address record.payload)
  | .writerTurn => none

/-- Distinct addresses of a run lie in distinct hot slots. -/
def SlotsSeparate (hashes : Hashes) (calls : List Call) : Prop :=
  ∀ first ∈ calls.filterMap (addressOf hashes), ∀ second ∈ calls.filterMap (addressOf hashes),
    hotSlot (hashes.ahash first) = hotSlot (hashes.ahash second) → first = second

instance (hashes : Hashes) (calls : List Call) : Decidable (SlotsSeparate hashes calls) :=
  inferInstanceAs (Decidable (∀ first ∈ _, ∀ second ∈ _, _ → _))

/-- The last call that applied a record at an address. -/
def lastWriter (hashes : Hashes) (hash : Hash32) (calls : List Call) : Option Call :=
  latest (fun call => (call.record? hashes).bind fun record =>
    if hashes.address record.payload = hash then some call else none) calls

/-- No key of a run is read while the last record at its address is a foreign
one. -/
def ReadsUndisturbed (hashes : Hashes) (calls : List Call) : Prop :=
  ∀ earlier key, earlier ++ [.get key] <+: calls →
    ∀ record, lastWriter hashes (hashes.sha256 key) earlier ≠ some (.apply record)

theorem answers_concat {S : Type} [StateStore S] (storage : S) (calls : List Call) (call : Call) :
    answers hashes storage (calls ++ [call]) =
      answers hashes storage calls ++ answer hashes (Call.run hashes storage calls) call := by
  induction calls generalizing storage with
  | nil => simp [answers]
  | cons first calls ih =>
      rw [List.cons_append, answers, answers, ih, List.append_assoc]
      rfl

theorem SlotsSeparate.of_earlier {calls whole : List Call} (hseparate : SlotsSeparate hashes whole)
    (hbefore : calls <+: whole) : SlotsSeparate hashes calls := by
  have hsubset := (hbefore.filterMap (addressOf hashes)).subset
  exact fun first hfirst second hsecond =>
    hseparate first (hsubset hfirst) second (hsubset hsecond)

/-- With separate slots, the records of a slot are those of one address. -/
theorem address_eq_of_hotSlot_eq {calls : List Call} {key : Bytes}
    (hseparate : SlotsSeparate hashes (calls ++ [.get key])) {call : Call} (hmem : call ∈ calls)
    {record : SignedRecord} (hrecord : call.record? hashes = some record)
    (hslot : hotSlot (hashes.entityId record) = keySlot hashes key) :
    hashes.address record.payload = hashes.sha256 key := by
  apply hseparate _ _ _ _ hslot
  · refine List.mem_filterMap.mpr ⟨call, by simp [hmem], ?_⟩
    cases call with
    | put other val =>
        cases hrecord
        simp [addressOf]
    | get other => cases hrecord
    | apply other =>
        cases hrecord
        rfl
    | writerTurn => cases hrecord
  · exact List.mem_filterMap.mpr ⟨.get key, by simp, rfl⟩

/-- When the last record at the address of a key is a client's, foreign records
have left no trace in the slot of the key. -/
theorem lastInSlot_clientCalls {calls : List Call} {key : Bytes}
    (hseparate : SlotsSeparate hashes (calls ++ [.get key]))
    (hundisturbed : ∀ record, lastWriter hashes (hashes.sha256 key) calls ≠ some (.apply record)) :
    lastInSlot hashes (keySlot hashes key) (clientCalls calls) =
      lastInSlot hashes (keySlot hashes key) calls := by
  apply latest_filter
  intro event hlatest
  have hwriter : lastWriter hashes (hashes.sha256 key) calls = some event := by
    rw [← hlatest, lastWriter]
    apply latest_congr
    intro call hmem
    cases hrecord : call.record? hashes with
    | none => rfl
    | some record =>
        by_cases hslot : hotSlot (hashes.entityId record) = keySlot hashes key
        · simp [hslot, address_eq_of_hotSlot_eq hseparate hmem hrecord hslot]
        · have haddress : hashes.address record.payload ≠ hashes.sha256 key := by
            intro haddress
            exact hslot (by rw [Hashes.entityId, haddress, hotSlot_ahash_sha256])
          simp [hslot, haddress]
  cases event with
  | put _ _ => rfl
  | get _ => rfl
  | apply record => exact absurd hwriter (hundisturbed record)
  | writerTurn =>
      obtain ⟨call, -, hread⟩ := exists_mem_of_latest hwriter
      cases call <;> simp [Call.record?] at hread

variable [LawfulCdDB DB]

/-- Dropping everything but the client calls of a run changes none of its
answers. -/
theorem answers_clientCalls {db : DB} (hidle : CdDB.IsIdle db) {calls : List Call}
    (hseparate : SlotsSeparate hashes calls) (hundisturbed : ReadsUndisturbed hashes calls) :
    answers hashes (TieredStore.new db) (clientCalls calls) =
      answers hashes (TieredStore.new db) calls := by
  induction calls using List.reverseRecOn with
  | nil => rfl
  | append_singleton calls call ih =>
      have hbefore : calls <+: calls ++ [call] := List.prefix_append _ _
      have hearlier := ih (hseparate.of_earlier hbefore)
        fun earlier key hget => hundisturbed earlier key (hget.trans hbefore)
      rw [answers_concat, ← hearlier]
      cases call with
      | put key val =>
          rw [clientCalls, List.filter_append, ← clientCalls]
          exact answers_concat _ _ _
      | get key =>
          rw [clientCalls, List.filter_append, ← clientCalls]
          refine (answers_concat _ _ _).trans (congrArg (_ ++ [·]) ?_)
          rw [TieredStore.get_run hidle, TieredStore.get_run hidle,
            lastInSlot_clientCalls hseparate (hundisturbed calls key List.prefix_rfl)]
      | apply record => simp [clientCalls, isClientCall, answer]
      | writerTurn => simp [clientCalls, isClientCall, answer]

/-- **Foreign records away from the keys being read are invisible.** Two runs
with the same client calls return the same answers, whatever foreign records and
writer turns either contains, provided no key is read while the last record at
its address is foreign. -/
theorem answers_eq_of_clientCalls_eq {db : DB} (hidle : CdDB.IsIdle db)
    {first second : List Call} (hsame : clientCalls first = clientCalls second)
    (hseparate : SlotsSeparate hashes first) (hseparate' : SlotsSeparate hashes second)
    (hundisturbed : ReadsUndisturbed hashes first)
    (hundisturbed' : ReadsUndisturbed hashes second) :
    answers hashes (TieredStore.new db) first = answers hashes (TieredStore.new db) second := by
  rw [← answers_clientCalls hidle hseparate hundisturbed, hsame,
    answers_clientCalls hidle hseparate' hundisturbed']

/-- A record of type 7 with a payload below 32 bytes, filed under the SHA-256 of
that payload, which is here the address of `keyB`. -/
def shortForeign : SignedRecord := ⟨3, keyB, zeroSignature, 7⟩

/-- A record of type 7 whose payload opens with the address of `keyA`. -/
def longForeign : SignedRecord := ⟨3, (sampleSha256 keyA).toList ++ [9], zeroSignature, 7⟩

/-- A foreign record at the address of `keyB` goes unnoticed when `keyB` is put
again before it is read. -/
theorem answers_eq_of_clientCalls_eq_shortForeign :
    answers sampleHashes (TieredStore.new (ReferenceDB.empty : ReferenceDB 8))
        [.get keyA, .put keyB [2], .get keyB] =
      answers sampleHashes (TieredStore.new (ReferenceDB.empty : ReferenceDB 8))
        [.apply shortForeign, .writerTurn, .get keyA, .put keyB [2], .get keyB] := by
  refine answers_eq_of_clientCalls_eq ReferenceDB.isFresh_empty.isIdle rfl (by decide) (by decide)
    ?_ ?_
  all_goals
    intro earlier key hbefore record hwriter
    obtain ⟨position, hposition, rfl, hget⟩ := exists_take_of_prefix_concat hbefore
    simp only [List.length_cons, List.length_nil] at hposition
    interval_cases position <;> cases hget
  · cases hwriter
  · have hput : lastWriter sampleHashes (sampleHashes.sha256 keyB) [.get keyA, .put keyB [2]] =
        some (.put keyB [2]) := by decide
    cases hput.symm.trans hwriter
  · have hnone : lastWriter sampleHashes (sampleHashes.sha256 keyA)
        [.apply shortForeign, .writerTurn] = none := by decide
    cases hnone.symm.trans hwriter
  · have hput : lastWriter sampleHashes (sampleHashes.sha256 keyB)
        [.apply shortForeign, .writerTurn, .get keyA, .put keyB [2]] =
          some (.put keyB [2]) := by decide
    cases hput.symm.trans hwriter

/-- **A foreign record can answer a key.** Two runs with the same client calls,
one of which also applies a record of another type at the address of `keyA`, in
separate hot slots: a get that returned the put value returns the foreign
payload instead. -/
theorem answers_ne_of_longForeign :
    clientCalls [.put keyA [1], .get keyA] =
        clientCalls [.put keyA [1], .apply longForeign, .get keyA] ∧
      longForeign.recordType ≠ kvType ∧
      SlotsSeparate sampleHashes [.put keyA [1], .apply longForeign, .get keyA] ∧
      answers sampleHashes (TieredStore.new (ReferenceDB.empty : ReferenceDB 8))
          [.put keyA [1], .get keyA] ≠
        answers sampleHashes (TieredStore.new (ReferenceDB.empty : ReferenceDB 8))
          [.put keyA [1], .apply longForeign, .get keyA] := by
  have hidle : CdDB.IsIdle (ReferenceDB.empty : ReferenceDB 8) := ReferenceDB.isFresh_empty.isIdle
  have hput : answers sampleHashes (TieredStore.new (ReferenceDB.empty : ReferenceDB 8))
      [.put keyA [1], .get keyA] = [some [1]] := by
    rw [show [Call.put keyA [1], .get keyA] = [.put keyA [1]] ++ [.get keyA] from rfl,
      answers_concat, answer, TieredStore.get_run hidle]
    decide
  have hforeign : answers sampleHashes (TieredStore.new (ReferenceDB.empty : ReferenceDB 8))
      [.put keyA [1], .apply longForeign, .get keyA] = [some longForeign.payload] := by
    rw [show [Call.put keyA [1], .apply longForeign, .get keyA] =
        [.put keyA [1], .apply longForeign] ++ [.get keyA] from rfl,
      answers_concat, answer, TieredStore.get_run hidle]
    decide
  refine ⟨rfl, by decide, by decide, fun hsame => ?_⟩
  rw [hput, hforeign] at hsame
  revert hsame
  decide

end ServerGo.Analysis
