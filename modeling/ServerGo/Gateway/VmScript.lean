/-
# VM scripts and the frames they travel in

A put on a key that starts with `vm:` carries a script for a device behind a
serial gateway. Before it is forwarded it passes a chain of checks, each with an
error text of its own; the rest of the key names the device, and the script is
framed with its MAC address.
-/

import Mathlib.Data.List.FinRange
import ServerGo.Storage.Record

namespace ServerGo.Gateway

open ServerGo.Storage

/-! ## Text -/

/-- The bytes of a text. -/
def utf8 (text : List Char) : Bytes := text.flatMap String.utf8EncodeChar

/-- `str::eq_ignore_ascii_case`. -/
def eqIgnoreAsciiCase (first second : List Char) : Bool :=
  first.map Char.toLower == second.map Char.toLower

/-- The text after its first bytes; `none` when they end inside a character or
beyond the text. -/
def dropBytes : List Char → Nat → Option (List Char)
  | text, 0 => some text
  | [], _ + 1 => none
  | char :: text, count + 1 =>
      if char.utf8Size ≤ count + 1 then dropBytes text (count + 1 - char.utf8Size) else none

/-- The first bytes of a text, under the same conditions. -/
def takeBytes : List Char → Nat → Option (List Char)
  | _, 0 => some []
  | [], _ + 1 => none
  | char :: text, count + 1 =>
      if char.utf8Size ≤ count + 1 then
        (takeBytes text (count + 1 - char.utf8Size)).map (char :: ·)
      else none

/-- `&text[start..stop]`; `none` is a panic. -/
def byteSlice (text : List Char) (start stop : Nat) : Option (List Char) :=
  if start ≤ stop then (dropBytes text start).bind (takeBytes · (stop - start)) else none

/-- The value of a hexadecimal digit, in either case. -/
def hexDigit? (char : Char) : Option Nat :=
  if '0' ≤ char ∧ char ≤ '9' then some (char.toNat - '0'.toNat)
  else if 'a' ≤ char ∧ char ≤ 'f' then some (char.toNat - 'a'.toNat + 10)
  else if 'A' ≤ char ∧ char ≤ 'F' then some (char.toNat - 'A'.toNat + 10)
  else none

/-- `char::is_ascii_hexdigit`. -/
def isAsciiHexdigit (char : Char) : Bool := (hexDigit? char).isSome

/-- `u8::from_str_radix(text, 16)` on a text without a sign. -/
def u8FromHex (text : List Char) : Option UInt8 :=
  if text = [] then none
  else
    match text.mapM hexDigit? with
    | some digits =>
        let value := digits.foldl (fun value digit => 16 * value + digit) 0
        if value < 256 then some (UInt8.ofNat value) else none
    | none => none

/-! ## Requests -/

/-- `std::net::IpAddr`. -/
inductive IpAddr
  | v4 (octets : Vector UInt8 4)
  | v6 (segments : Vector UInt16 8)
  deriving DecidableEq

/-- `IpAddr::is_loopback`: `127.0.0.0/8` and `::1`. -/
def IpAddr.isLoopback : IpAddr → Bool
  | .v4 octets => octets[0] == 127
  | .v6 segments => segments == #v[0, 0, 0, 0, 0, 0, 0, 1]

/-- `std::net::SocketAddr`. -/
structure SocketAddr where
  ip : IpAddr
  port : UInt16
  deriving DecidableEq

/-- `SecuritySettings`. -/
structure SecuritySettings where
  enableVmScripts : Bool

/-- `key.starts_with("vm:")`. -/
def isVm (key : String) : Bool := "vm:".toList.isPrefixOf key.toList

/-- The checks a script passes before it is forwarded, in the order they are
made, with the error text of the first that fails. -/
def vmRejection (settings : SecuritySettings) (peerAddr : Option SocketAddr) (val : Bytes) :
    Option String :=
  if !settings.enableVmScripts then
    some "VM scripts are strictly disabled in this production environment"
  else
    match peerAddr with
    | some addr =>
        if !addr.ip.isLoopback then some "VM scripts are only allowed from localhost"
        else if val.length > 4096 then some "VM script payload exceeds 4096 bytes limit"
        else none
    | none => some "VM scripts require a verifiable origin"

/-- A script is forwarded exactly when it is enabled, comes from a loopback
address and is at most 4096 bytes long. -/
theorem vmRejection_eq_none_iff {settings : SecuritySettings} {peerAddr : Option SocketAddr}
    {val : Bytes} :
    vmRejection settings peerAddr val = none ↔
      settings.enableVmScripts = true ∧ (∃ addr, peerAddr = some addr ∧ addr.ip.isLoopback = true) ∧
        val.length ≤ 4096 := by
  unfold vmRejection
  cases settings.enableVmScripts with
  | false => simp
  | true =>
      cases peerAddr with
      | none => simp
      | some addr => cases hloopback : addr.ip.isLoopback <;> simp [hloopback]

/-! ## Frames -/

/-- A device address. -/
abbrev Mac := Vector UInt8 6

/-- `[0xFF; 6]`. -/
def broadcastMac : Mac := Vector.replicate 6 0xFF

/-- The loop that reads six bytes out of twelve hexadecimal digits; `none` is a
panic of one of its slices. -/
def macOfDigits (clean : List Char) : Option Mac :=
  (List.finRange 6).foldlM
    (fun mac idx => (byteSlice clean (idx.val * 2) (idx.val * 2 + 2)).map fun pair =>
      match u8FromHex pair with
      | some byte => mac.set idx.val byte
      | none => mac)
    (Vector.replicate 6 0)

/-- `key.strip_prefix("vm:").unwrap_or(&key)`. -/
def vmTarget (key : String) : List Char :=
  if isVm key then key.toList.drop 3 else key.toList

/-- The device a target names: all of them by name or for want of twelve
hexadecimal digits, else the one with those digits. -/
def macOfTarget (part : List Char) : Option Mac :=
  if eqIgnoreAsciiCase part "broadcast".toList || eqIgnoreAsciiCase part "all".toList then
    some broadcastMac
  else
    let clean := part.filter isAsciiHexdigit
    if (utf8 clean).length = 12 then macOfDigits clean else some broadcastMac

/-- The address a script on this key is sent to. -/
def macAddr (key : String) : Option Mac := macOfTarget (vmTarget key)

/-- `io_oi_core::GatewayFrame`. -/
structure GatewayFrame where
  macAddr : Mac
  payload : Bytes
  deriving DecidableEq

/-- `OpCode::VmScriptDispatch`. -/
def vmScriptDispatch : UInt8 := 0x40

/-- The frame of a script. -/
def vmFrame (mac : Mac) (val : Bytes) : GatewayFrame where
  macAddr := mac
  payload := vmScriptDispatch :: val

/-! ## The address is always found -/

/-- In a text of one-byte characters bytes are characters. -/
theorem dropBytes_of_ascii {text : List Char} (hascii : ∀ char ∈ text, char.utf8Size = 1)
    {count : Nat} (hcount : count ≤ text.length) :
    dropBytes text count = some (text.drop count) := by
  induction text generalizing count with
  | nil =>
      obtain rfl : count = 0 := by simpa using hcount
      rfl
  | cons char text ih =>
      cases count with
      | zero => rfl
      | succ count =>
          have hchar : char.utf8Size = 1 := hascii char (by simp)
          rw [dropBytes, hchar, if_pos (by omega), List.drop_succ_cons]
          exact ih (fun other hmem => hascii other (by simp [hmem])) (by simpa using hcount)

theorem takeBytes_of_ascii {text : List Char} (hascii : ∀ char ∈ text, char.utf8Size = 1)
    {count : Nat} (hcount : count ≤ text.length) :
    takeBytes text count = some (text.take count) := by
  induction text generalizing count with
  | nil =>
      obtain rfl : count = 0 := by simpa using hcount
      rfl
  | cons char text ih =>
      cases count with
      | zero => rfl
      | succ count =>
          have hchar : char.utf8Size = 1 := hascii char (by simp)
          rw [takeBytes, hchar, if_pos (by omega), List.take_succ_cons, Nat.add_sub_cancel,
            ih (fun other hmem => hascii other (by simp [hmem])) (by simpa using hcount)]
          rfl

theorem byteSlice_of_ascii {text : List Char} (hascii : ∀ char ∈ text, char.utf8Size = 1)
    {start stop : Nat} (hstart : start ≤ stop) (hstop : stop ≤ text.length) :
    byteSlice text start stop = some ((text.drop start).take (stop - start)) := by
  rw [byteSlice, if_pos hstart, dropBytes_of_ascii hascii (hstart.trans hstop), Option.bind_some]
  refine takeBytes_of_ascii (fun char hmem => hascii char (List.mem_of_mem_drop hmem)) ?_
  simp only [List.length_drop]
  omega

/-- A hexadecimal digit is one byte. -/
theorem utf8Size_of_isAsciiHexdigit {char : Char} (hdigit : isAsciiHexdigit char = true) :
    char.utf8Size = 1 := by
  rw [Char.utf8Size_eq_one_iff]
  simp only [isAsciiHexdigit, hexDigit?] at hdigit
  split at hdigit
  next hrange => exact UInt32.le_trans hrange.2 (by decide)
  next =>
      split at hdigit
      next hrange => exact UInt32.le_trans hrange.2 (by decide)
      next =>
          split at hdigit
          next hrange => exact UInt32.le_trans hrange.2 (by decide)
          next => cases hdigit

/-- A text of hexadecimal digits has as many bytes as characters. -/
theorem length_utf8_of_digits {clean : List Char}
    (hdigits : ∀ char ∈ clean, isAsciiHexdigit char = true) :
    (utf8 clean).length = clean.length := by
  induction clean with
  | nil => rfl
  | cons char clean ih =>
      rw [utf8, List.flatMap_cons, List.length_append, String.length_utf8EncodeChar,
        utf8Size_of_isAsciiHexdigit (hdigits char (by simp)), ← utf8,
        ih fun other hmem => hdigits other (by simp [hmem]), List.length_cons, Nat.add_comm]

/-- On twelve hexadecimal digits no slice is out of range or splits a character.
-/
theorem macOfDigits_isSome {clean : List Char}
    (hdigits : ∀ char ∈ clean, isAsciiHexdigit char = true) (hlength : clean.length = 12) :
    (macOfDigits clean).isSome := by
  have hascii : ∀ char ∈ clean, char.utf8Size = 1 := fun char hmem =>
    utf8Size_of_isAsciiHexdigit (hdigits char hmem)
  have hloop : ∀ (indices : List (Fin 6)) (mac : Mac), (indices.foldlM
      (fun (mac : Mac) idx => (byteSlice clean (idx.val * 2) (idx.val * 2 + 2)).map fun pair =>
        match u8FromHex pair with
        | some byte => mac.set idx.val byte
        | none => mac) mac).isSome := by
    intro indices
    induction indices with
    | nil => exact fun _ => rfl
    | cons idx indices ih =>
        intro mac
        rw [List.foldlM_cons, byteSlice_of_ascii hascii (by omega) (by omega)]
        exact ih _
  exact hloop _ _

/-- Finding the address never panics, whatever the key. -/
theorem macAddr_isSome (key : String) : (macAddr key).isSome := by
  rw [macAddr, macOfTarget]
  split
  · rfl
  · dsimp only
    split
    next hlength =>
        have hdigits : ∀ char ∈ (vmTarget key).filter isAsciiHexdigit,
            isAsciiHexdigit char = true := fun char hmem => (List.mem_filter.mp hmem).2
        exact macOfDigits_isSome hdigits ((length_utf8_of_digits hdigits).symm.trans hlength)
    next => rfl

example : macAddr "vm:0a:1B-2c 3D.4e/5F" = some #v[0x0a, 0x1b, 0x2c, 0x3d, 0x4e, 0x5f] := by
  decide

end ServerGo.Gateway
