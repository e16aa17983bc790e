/-
# Records and their addresses

A `SignedRecord` is what the stores keep and what peers exchange. It carries no
name of its own: its address is the first 32 bytes of the payload, or the
SHA-256 of a payload shorter than that, and the entity id under which every
tier files it is a second hash of the address.

Both hash functions come from outside the repository and enter as parameters.
Nothing here assumes them injective; results that need distinct hashes say so.
-/

import Mathlib.Tactic.Common

namespace ServerGo.Storage

/-- The contents of a `Vec<u8>`. -/
abbrev Bytes := List UInt8

/-- `io_oi_core::Hash32`: 32 bytes. -/
abbrev Hash32 := Vector UInt8 32

/-- A judge's signature: 64 bytes. -/
abbrev Signature := Vector UInt8 64

/-- The all-zero signature, `[0u8; 64]`. -/
def zeroSignature : Signature := Vector.replicate 64 0

/-- `io_oi_core::EpochId`, a 64-bit counter. -/
abbrev EpochId := UInt64

/-- A `usize` entity id, on the 64-bit targets the server is built for. -/
abbrev EntityId := UInt64

/-- `io_oi_core::SignedRecord`. -/
@[ext]
structure SignedRecord where
  epochId : EpochId
  payload : Bytes
  judgeSignature : Signature
  recordType : UInt32
  deriving DecidableEq

/-- The hash functions the stores call: `sha2::Sha256` over a byte string and
`ahash::AHasher::default` over the 32 bytes of an address. -/
structure Hashes where
  sha256 : Bytes → Hash32
  ahash : Hash32 → EntityId

namespace Hashes

variable (hashes : Hashes)

/-- The hash functions of another process. SHA-256 is the same in all of them;
`AHasher::default` draws its keys anew in each. -/
def withKeys (ahash : Hash32 → EntityId) : Hashes where
  sha256 := hashes.sha256
  ahash := ahash

/-- The address an applied record is filed under: its first 32 payload bytes, or
the SHA-256 of a shorter payload. -/
def address (payload : Bytes) : Hash32 :=
  if hlength : payload.length ≥ 32 then
    ⟨(payload.take 32).toArray, List.length_take_of_le hlength⟩
  else
    hashes.sha256 payload

/-- The entity id of a record, `hasher.finish() as usize`. -/
def entityId (record : SignedRecord) : EntityId :=
  hashes.ahash (hashes.address record.payload)

@[simp]
theorem address_withKeys (ahash : Hash32 → EntityId) (payload : Bytes) :
    (hashes.withKeys ahash).address payload = hashes.address payload := rfl

/-- A payload that starts with an address is filed under it, whatever follows. -/
@[simp]
theorem address_append (hash : Hash32) (rest : Bytes) :
    hashes.address (hash.toList ++ rest) = hash := by
  have hlength : (hash.toList ++ rest).length ≥ 32 := by simp
  rw [address, dif_pos hlength]
  apply Vector.toList_inj.mp
  simp

end Hashes

/-! ## Hash functions for concrete runs

SHA-256 is given on the keys that concrete runs use. `AHasher` is keyed anew in
each process, so its value on an address may be any word: one choice below puts
the sample keys in distinct hot slots, the other in distinct entities that share
a slot.
-/

/-- The key `"a"`. -/
def keyA : Bytes := [97]

/-- The key `"b"`. -/
def keyB : Bytes := [98]

/-- SHA-256 on the sample keys. -/
def sampleSha256 (message : Bytes) : Hash32 :=
  if message = keyA then
    #v[0xca, 0x97, 0x81, 0x12, 0xca, 0x1b, 0xbd, 0xca,
      0xfa, 0xc2, 0x31, 0xb3, 0x9a, 0x23, 0xdc, 0x4d,
      0xa7, 0x86, 0xef, 0xf8, 0x14, 0x7c, 0x4e, 0x72,
      0xb9, 0x80, 0x77, 0x85, 0xaf, 0xee, 0x48, 0xbb]
  else if message = keyB then
    #v[0x3e, 0x23, 0xe8, 0x16, 0x00, 0x39, 0x59, 0x4a,
      0x33, 0x89, 0x4f, 0x65, 0x64, 0xe1, 0xb1, 0x34,
      0x8b, 0xbd, 0x7a, 0x00, 0x88, 0xd4, 0x2c, 0x4a,
      0xcb, 0x73, 0xee, 0xae, 0xd5, 0x9c, 0x00, 0x9d]
  else
    Vector.replicate 32 0

/-- Addresses of the sample keys fall in distinct hot slots. -/
def sampleHashes : Hashes where
  sha256 := sampleSha256
  ahash hash := hash.back.toUInt64

/-- Addresses of the sample keys are distinct entities of one hot slot. -/
def collidingHashes : Hashes where
  sha256 := sampleSha256
  ahash hash := hash.back.toUInt64 <<< 18

/-- The keys another process has drawn: no sample key has the entity id that it or
the other has under `sampleHashes`. -/
def otherKeys (hash : Hash32) : EntityId := hash.back.toUInt64 + 1

end ServerGo.Storage
