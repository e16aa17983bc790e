/-
# The global hot index

`GlobalHotIndex` is a table of atomic cells selected by the low bits of a hash.
A cell holds the record last stored through it and no key, so two hashes that
agree modulo the capacity share one cell. `UncheckedHotIndex` is the index as it
is declared, where an access may be out of range; `GlobalHotIndex` carries what
`new` asserts, which is what makes the mask a remainder and every access in
bounds, and is what an unchecked index that was made by `new` amounts to.
-/

import Mathlib.Data.Nat.Bitwise
import ServerGo.Storage.Record

namespace ServerGo.Storage

/-- `CachedRecord`: the hot copy of a record, with every field at full width. -/
@[ext]
structure CachedRecord where
  epochId : EpochId
  recordType : UInt32
  judgeSignature : Signature
  payload : Bytes
  deriving DecidableEq

/-- The hot copy made by `apply_signed_record`. -/
def SignedRecord.toCached (record : SignedRecord) : CachedRecord where
  epochId := record.epochId
  recordType := record.recordType
  judgeSignature := record.judgeSignature
  payload := record.payload

/-- The record served from a hot copy. -/
def CachedRecord.toSigned (cached : CachedRecord) : SignedRecord where
  epochId := cached.epochId
  recordType := cached.recordType
  judgeSignature := cached.judgeSignature
  payload := cached.payload

/-! ## The index as it is declared -/

/-- `GlobalHotIndex`, with nothing that ties the mask to the table. -/
@[ext]
structure UncheckedHotIndex where
  table : Array (Option CachedRecord)
  mask : UInt64

namespace UncheckedHotIndex

/-- `GlobalHotIndex::new`, with the loop that fills the table; `none` is the failed
assertion. -/
def new (capacity : UInt64) : Option UncheckedHotIndex :=
  if capacity.toNat.isPowerOfTwo then
    some {
      table := Nat.repeat (fun table => table.push none) capacity.toNat #[]
      mask := capacity - 1 }
  else
    none

/-- `GlobalHotIndex::get`; the outer `none` is an index out of range. -/
def get (index : UncheckedHotIndex) (hash : UInt64) : Option (Option CachedRecord) :=
  index.table[(hash &&& index.mask).toNat]?

/-- `GlobalHotIndex::set`; `none` is an index out of range. -/
def set (index : UncheckedHotIndex) (hash : UInt64) (record : CachedRecord) :
    Option UncheckedHotIndex :=
  if (hash &&& index.mask).toNat < index.table.size then
    some { index with
      table := index.table.setIfInBounds (hash &&& index.mask).toNat (some record) }
  else
    none

end UncheckedHotIndex

/-! ## The index with what it relies on -/

/-- `GlobalHotIndex`. The last two fields are what `new` asserts and computes. -/
structure GlobalHotIndex (capacity : Nat) where
  table : Vector (Option CachedRecord) capacity
  mask : UInt64
  isPowerOfTwo : capacity.isPowerOfTwo
  mask_toNat : mask.toNat = capacity - 1

namespace GlobalHotIndex

variable {capacity : Nat}

/-- `GlobalHotIndex::new`; `none` is the failed assertion. -/
def new (capacity : UInt64) : Option (GlobalHotIndex capacity.toNat) :=
  if hpower : capacity.toNat.isPowerOfTwo then
    some {
      table := Vector.replicate capacity.toNat none
      mask := capacity - 1
      isPowerOfTwo := hpower
      mask_toNat := by
        have hpos := Nat.pos_of_isPowerOfTwo hpower
        exact UInt64.toNat_sub_of_le _ _ (UInt64.le_iff_toNat_le.mpr hpos) }
  else
    none

/-- Masking by a power of two less one is taking the remainder. -/
theorem and_mask_toNat (index : GlobalHotIndex capacity) (hash : UInt64) :
    (hash &&& index.mask).toNat = hash.toNat % capacity := by
  obtain ⟨exponent, hcapacity⟩ := index.isPowerOfTwo
  rw [UInt64.toNat_and, index.mask_toNat]
  subst hcapacity
  exact Nat.and_two_pow_sub_one_eq_mod hash.toNat exponent

/-- The masked hash is a position of the table. -/
theorem and_mask_lt (index : GlobalHotIndex capacity) (hash : UInt64) :
    (hash &&& index.mask).toNat < capacity := by
  rw [and_mask_toNat]
  exact Nat.mod_lt _ (Nat.pos_of_isPowerOfTwo index.isPowerOfTwo)

/-- `GlobalHotIndex::get`: load the selected cell. -/
def get (index : GlobalHotIndex capacity) (hash : UInt64) : Option CachedRecord :=
  have := index.and_mask_lt hash
  index.table[(hash &&& index.mask).toNat]

/-- `GlobalHotIndex::set`: store into the selected cell. -/
def set (index : GlobalHotIndex capacity) (hash : UInt64) (record : CachedRecord) :
    GlobalHotIndex capacity :=
  { index with
    table := index.table.set (hash &&& index.mask).toNat (some record) (index.and_mask_lt hash) }

/-- A new index is empty at every hash. -/
theorem get_of_new {capacity : UInt64} {index : GlobalHotIndex capacity.toNat}
    (hnew : new capacity = some index) (hash : UInt64) : index.get hash = none := by
  rw [new] at hnew
  split at hnew
  · cases hnew
    simp [get]
  · cases hnew

/-- A stored record is read back by every hash of its residue class and by no
other. -/
theorem get_set (index : GlobalHotIndex capacity) (hash other : UInt64) (record : CachedRecord) :
    (index.set hash record).get other =
      if hash.toNat % capacity = other.toNat % capacity then some record
      else index.get other := by
  simp only [get, set, Vector.getElem_set, and_mask_toNat]

/-- The table and the mask alone. -/
def toUnchecked (index : GlobalHotIndex capacity) : UncheckedHotIndex where
  table := index.table.toArray
  mask := index.mask

theorem size_toUnchecked (index : GlobalHotIndex capacity) :
    index.toUnchecked.table.size = capacity := index.table.size_toArray

/-- What `new` makes has the invariant. -/
theorem new_unchecked (capacity : UInt64) :
    UncheckedHotIndex.new capacity = (new capacity).map toUnchecked := by
  have hfilled : ∀ count : Nat,
      Nat.repeat (fun table : Array (Option CachedRecord) => table.push none) count #[] =
        Array.replicate count none := by
    intro count
    induction count with
    | zero => rfl
    | succ count ih => rw [Array.replicate_succ, ← ih, Nat.repeat]
  rw [UncheckedHotIndex.new, new, hfilled]
  split <;> rfl

/-- With the invariant an access is never out of range. -/
theorem get_toUnchecked (index : GlobalHotIndex capacity) (hash : UInt64) :
    index.toUnchecked.get hash = some (index.get hash) :=
  Array.getElem?_eq_getElem (index.size_toUnchecked.symm ▸ index.and_mask_lt hash)

theorem set_toUnchecked (index : GlobalHotIndex capacity) (hash : UInt64)
    (record : CachedRecord) :
    index.toUnchecked.set hash record = some (index.set hash record).toUnchecked := by
  have hrange : (hash &&& index.toUnchecked.mask).toNat < index.toUnchecked.table.size :=
    index.size_toUnchecked.symm ▸ index.and_mask_lt hash
  rw [UncheckedHotIndex.set, if_pos hrange, Array.setIfInBounds, dif_pos hrange]
  rfl

end GlobalHotIndex

/-! ## The index of the stores -/

/-- The capacity both stores give their hot index. -/
def hotCapacity : UInt64 := 262144

theorem hotCapacity_isPowerOfTwo : hotCapacity.toNat.isPowerOfTwo := ⟨18, rfl⟩

theorem new_hotCapacity_isSome : (GlobalHotIndex.new hotCapacity).isSome := by
  rw [GlobalHotIndex.new, dif_pos hotCapacity_isPowerOfTwo]
  rfl

/-- `GlobalHotIndex::new(262144)`. -/
def newHotIndex : GlobalHotIndex hotCapacity.toNat :=
  (GlobalHotIndex.new hotCapacity).get new_hotCapacity_isSome

/-- The hot slot of an entity. -/
def hotSlot (entityId : EntityId) : Nat := entityId.toNat % hotCapacity.toNat

@[simp]
theorem get_newHotIndex (entityId : EntityId) : newHotIndex.get entityId = none :=
  GlobalHotIndex.get_of_new (Option.some_get _).symm entityId

theorem get_set_hotSlot (index : GlobalHotIndex hotCapacity.toNat) (stored read : EntityId)
    (record : CachedRecord) :
    (index.set stored record).get read =
      if hotSlot stored = hotSlot read then some record else index.get read :=
  index.get_set stored read record

end ServerGo.Storage
