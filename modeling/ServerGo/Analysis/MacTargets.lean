/-
# The device a key names

The text after `vm:` names a device by the twelve hexadecimal digits of its
address, wherever they stand and whatever stands between them. Any other text is
taken for every device: by the two words that ask for it, and for want of twelve
digits. So an address that is spelled out is always reached, and one that is
misspelled is a broadcast unless it still has twelve digits.
-/

import ServerGo.Gateway.VmScript

namespace ServerGo.Analysis

open ServerGo.Gateway ServerGo.Storage

/-! ## Spellings -/

/-- The values of the two hexadecimal digits of a byte. -/
def nibbles (byte : UInt8) : List Nat := [byte.toNat / 16, byte.toNat % 16]

/-- A text spells hexadecimal digits when it has just these, in order and in
either case, among characters that are no hexadecimal digits. -/
inductive Spells : List Nat → List Char → Prop
  | nil : Spells [] []
  | digit {digits : List Nat} {text : List Char} {char : Char} {value : Nat} :
      hexDigit? char = some value → Spells digits text → Spells (value :: digits) (char :: text)
  | filler {digits : List Nat} {text : List Char} {char : Char} :
      hexDigit? char = none → Spells digits text → Spells digits (char :: text)

/-- A text spells the digits that are left when all else is dropped. -/
theorem spells_iff {digits : List Nat} {text : List Char} :
    Spells digits text ↔ text.filterMap hexDigit? = digits := by
  constructor
  · intro hspells
    induction hspells with
    | nil => rfl
    | digit hchar _ ih => rw [List.filterMap_cons_some hchar, ih]
    | filler hchar _ ih => rw [List.filterMap_cons_none hchar, ih]
  · rintro rfl
    induction text with
    | nil => exact .nil
    | cons char text ih =>
        cases hchar : hexDigit? char with
        | some value =>
            rw [List.filterMap_cons_some hchar]
            exact .digit hchar ih
        | none =>
            rw [List.filterMap_cons_none hchar]
            exact .filler hchar ih

/-- The characters the filter keeps are those that have a value. -/
theorem map_hexDigit?_filter (text : List Char) :
    (text.filter isAsciiHexdigit).map hexDigit? = (text.filterMap hexDigit?).map some := by
  induction text with
  | nil => rfl
  | cons char text ih =>
      cases hchar : hexDigit? char <;> simp [isAsciiHexdigit, hchar, ← ih]

theorem length_filter_isAsciiHexdigit (text : List Char) :
    (text.filter isAsciiHexdigit).length = (text.filterMap hexDigit?).length := by
  simpa using congrArg List.length (map_hexDigit?_filter text)

/-- The bytes of the filtered text are its digits, one each. -/
theorem length_utf8_filter (text : List Char) :
    (utf8 (text.filter isAsciiHexdigit)).length = (text.filterMap hexDigit?).length := by
  rw [length_utf8_of_digits fun char hmem => (List.mem_filter.mp hmem).2,
    length_filter_isAsciiHexdigit]

/-! ## Reading the digits -/

/-- The value of a digit, by its code point. -/
theorem hexDigit?_eq (char : Char) :
    hexDigit? char =
      if 48 ≤ char.toNat ∧ char.toNat ≤ 57 then some (char.toNat - 48)
      else if 97 ≤ char.toNat ∧ char.toNat ≤ 102 then some (char.toNat - 97 + 10)
      else if 65 ≤ char.toNat ∧ char.toNat ≤ 70 then some (char.toNat - 65 + 10)
      else none := rfl

theorem hexDigit?_lt {char : Char} {value : Nat} (hchar : hexDigit? char = some value) :
    value < 16 := by
  rw [hexDigit?_eq] at hchar
  grind

/-- Upper case makes no difference. -/
theorem hexDigit?_toLower (char : Char) : hexDigit? char.toLower = hexDigit? char := by
  have hlower : char.toLower.toNat =
      if 65 ≤ char.toNat ∧ char.toNat ≤ 90 then char.toNat + 32 else char.toNat := by
    by_cases hupper : char.val ≥ 'A'.val ∧ char.val ≤ 'Z'.val
    · have hrange : 65 ≤ char.toNat ∧ char.toNat ≤ 90 := hupper
      have hshift : char.toLower.toNat = (char.val + 32).toNat :=
        congrArg Char.toNat (dif_pos hupper)
      have hsum : (char.val + 32).toNat = (char.toNat + 32) % 2 ^ 32 := UInt32.toNat_add ..
      rw [if_pos hrange, hshift, hsum, Nat.mod_eq_of_lt (by omega)]
    · exact (congrArg Char.toNat (dif_neg hupper)).trans (if_neg hupper).symm
  rw [hexDigit?_eq, hexDigit?_eq, hlower]
  grind

/-- Two digits are a byte, which is never out of range. -/
theorem u8FromHex_pair {high low : Char} {first second : Nat}
    (hhigh : hexDigit? high = some first) (hlow : hexDigit? low = some second) :
    u8FromHex [high, low] = some (UInt8.ofNat (16 * first + second)) := by
  have hfirst := hexDigit?_lt hhigh
  have hsecond := hexDigit?_lt hlow
  have hvalue : 16 * first + second < 256 := by omega
  simp [u8FromHex, hhigh, hlow, hvalue]

/-- A loop that writes at each of its indices what belongs there leaves it there.
-/
theorem get_foldl_set {α : Type*} {n : Nat} (vals : Fin n → α) (idx : Fin n)
    {indices : List (Fin n)} {read : Vector α n}
    (hwritten : idx ∈ indices ∨ read.get idx = vals idx) :
    (indices.foldl (fun read idx => read.set idx.val (vals idx) idx.isLt) read).get idx =
      vals idx := by
  induction indices generalizing read with
  | nil => exact hwritten.resolve_left List.not_mem_nil
  | cons first indices ih =>
      rw [List.foldl_cons]
      refine ih ?_
      by_cases hfirst : idx = first
      · subst hfirst
        exact Or.inr (Vector.getElem_set_self idx.isLt)
      · have hne : first.val ≠ idx.val := fun hsame => hfirst (Fin.ext hsame.symm)
        refine hwritten.imp (fun hmem => ?_) fun hsame => ?_
        · exact (List.mem_cons.mp hmem).resolve_left hfirst
        · exact (Vector.getElem_set_ne first.isLt idx.isLt hne).trans hsame

variable {clean : List Char} {digits : List Nat}

/-- On twelve digits no slice is out of range, and each is two digits. -/
theorem byteSlice_pair (hclean : clean.map hexDigit? = digits.map some)
    (hlength : digits.length = 12) (idx : Fin 6) :
    ∃ high low, byteSlice clean (idx.val * 2) (idx.val * 2 + 2) = some [high, low] ∧
      hexDigit? high = some digits[idx.val * 2] ∧
      hexDigit? low = some digits[idx.val * 2 + 1] := by
  have hsame : clean.length = 12 := by simpa [hlength] using congrArg List.length hclean
  have hascii : ∀ char ∈ clean, char.utf8Size = 1 := by
    intro char hmem
    have hdigit : hexDigit? char ∈ digits.map some := hclean ▸ List.mem_map_of_mem hmem
    obtain ⟨value, -, hvalue⟩ := List.mem_map.mp hdigit
    exact utf8Size_of_isAsciiHexdigit (by rw [isAsciiHexdigit, ← hvalue]; rfl)
  have hvalue : ∀ position (_ : position < clean.length) (_ : position < digits.length),
      hexDigit? clean[position] = some digits[position] := by
    intro position hclean' hdigits
    have hat : (clean.map hexDigit?)[position]? = (digits.map some)[position]? := by rw [hclean]
    rw [List.getElem?_map, List.getElem?_map, List.getElem?_eq_getElem hclean',
      List.getElem?_eq_getElem hdigits] at hat
    exact Option.some.inj hat
  refine ⟨clean[idx.val * 2], clean[idx.val * 2 + 1], ?_, hvalue _ _ _, hvalue _ _ _⟩
  rw [byteSlice_of_ascii hascii (by omega) (by omega), Nat.add_sub_cancel_left,
    List.drop_eq_getElem_cons (by omega), List.take_succ_cons,
    List.drop_eq_getElem_cons (by omega)]
  rfl

/-- **Every byte is read.** On twelve digits each pass of the loop slices two
characters and parses them, and the address is made of what it parsed. -/
theorem macOfDigits_eq (hclean : clean.map hexDigit? = digits.map some)
    (hlength : digits.length = 12) :
    ∃ mac, macOfDigits clean = some mac ∧ ∀ idx : Fin 6, ∃ pair,
      byteSlice clean (idx.val * 2) (idx.val * 2 + 2) = some pair ∧
        u8FromHex pair = some (mac.get idx) ∧
        mac.get idx = UInt8.ofNat (16 * digits[idx.val * 2] + digits[idx.val * 2 + 1]) := by
  let bytes : Fin 6 → UInt8 := fun idx =>
    UInt8.ofNat (16 * digits[idx.val * 2] + digits[idx.val * 2 + 1])
  have hread : ∀ idx : Fin 6, ∃ pair, byteSlice clean (idx.val * 2) (idx.val * 2 + 2) = some pair ∧
      u8FromHex pair = some (bytes idx) := by
    intro idx
    obtain ⟨high, low, hslice, hhigh, hlow⟩ := byteSlice_pair hclean hlength idx
    exact ⟨_, hslice, u8FromHex_pair hhigh hlow⟩
  have hloop : macOfDigits clean = some ((List.finRange 6).foldl
      (fun mac idx => mac.set idx.val (bytes idx)) (Vector.replicate 6 0)) := by
    rw [macOfDigits]
    refine Eq.trans ?_ (List.foldlM_pure ..)
    congr 1
    funext mac idx
    obtain ⟨pair, hslice, hbyte⟩ := hread idx
    rw [hslice, Option.map_some]
    simp only [hbyte]
    rfl
  refine ⟨_, hloop, fun idx => ?_⟩
  have hbyte : ((List.finRange 6).foldl (fun (mac : Mac) idx => mac.set idx.val (bytes idx))
      (Vector.replicate 6 0)).get idx = bytes idx :=
    get_foldl_set bytes idx (Or.inl (List.mem_finRange idx))
  obtain ⟨pair, hslice, hparsed⟩ := hread idx
  exact ⟨pair, hslice, hparsed.trans (congrArg some hbyte.symm), hbyte⟩

/-! ## Targets -/

/-- A text that asks for every device by a word has the digits of that word. -/
theorem filterMap_hexDigit?_of_eqIgnoreAsciiCase {first second : List Char}
    (hsame : eqIgnoreAsciiCase first second = true) :
    first.filterMap hexDigit? = second.filterMap hexDigit? := by
  have hlower : ∀ text : List Char,
      (text.map Char.toLower).filterMap hexDigit? = text.filterMap hexDigit? := by
    intro text
    rw [List.filterMap_map]
    exact congrArg (List.filterMap · text) (funext hexDigit?_toLower)
  rw [← hlower first, ← hlower second, eq_of_beq hsame]

/-- With twelve digits a target is none of the two words. -/
theorem macOfTarget_of_twelve {part : List Char}
    (hlength : (part.filterMap hexDigit?).length = 12) :
    macOfTarget part = macOfDigits (part.filter isAsciiHexdigit) := by
  have hword : ∀ word : List Char, (word.filterMap hexDigit?).length ≠ 12 →
      eqIgnoreAsciiCase part word = false := by
    intro word hshort
    rw [Bool.eq_false_iff]
    intro hsame
    exact hshort (filterMap_hexDigit?_of_eqIgnoreAsciiCase hsame ▸ hlength)
  rw [macOfTarget, hword "broadcast".toList (by decide), hword "all".toList (by decide)]
  simp only [Bool.or_self, Bool.false_eq_true, if_false]
  rw [if_pos ((length_utf8_filter part).trans hlength)]

/-- Without twelve digits a target is taken for every device. -/
theorem macOfTarget_of_not_twelve {part : List Char}
    (hlength : (part.filterMap hexDigit?).length ≠ 12) :
    macOfTarget part = some broadcastMac := by
  rw [macOfTarget]
  split
  · rfl
  · rw [if_neg fun hbytes => hlength ((length_utf8_filter part).symm.trans hbytes)]

@[simp]
theorem vmTarget_append (target : String) : vmTarget ("vm:" ++ target) = target.toList := by
  simp [vmTarget, isVm, String.toList_append]

/-- The digits of a byte stand at twice its position. -/
theorem getElem?_flatMap_nibbles (bytes : List UInt8) (position : Nat) :
    (bytes.flatMap nibbles)[position * 2]? = bytes[position]?.map (fun byte => byte.toNat / 16) ∧
    (bytes.flatMap nibbles)[position * 2 + 1]? =
      bytes[position]?.map (fun byte => byte.toNat % 16) := by
  induction bytes generalizing position with
  | nil => simp
  | cons byte bytes ih =>
      cases position with
      | zero => simp [nibbles]
      | succ position => simpa [nibbles, Nat.succ_mul] using ih position

theorem length_flatMap_nibbles (bytes : List UInt8) :
    (bytes.flatMap nibbles).length = bytes.length * 2 := by
  induction bytes with
  | nil => rfl
  | cons byte bytes ih => simp [nibbles, ih, Nat.succ_mul]

/-- The digits of an address are read back as that address. -/
theorem macOfDigits_nibbles {mac : Mac} {clean : List Char}
    (hclean : clean.map hexDigit? = (mac.toList.flatMap nibbles).map some) :
    macOfDigits clean = some mac := by
  have hlength : (mac.toList.flatMap nibbles).length = 12 := by
    rw [length_flatMap_nibbles, Vector.length_toList]
  obtain ⟨read, hread, hbytes⟩ := macOfDigits_eq hclean hlength
  rw [hread, Option.some_inj]
  refine Vector.ext fun position hposition => ?_
  obtain ⟨-, -, -, hbyte⟩ := hbytes ⟨position, hposition⟩
  obtain ⟨hhigh, hlow⟩ := getElem?_flatMap_nibbles mac.toList position
  have hat : mac.toList[position]? = some mac[position] := by simp [hposition]
  rw [hat, Option.map_some, List.getElem?_eq_some_iff] at hhigh hlow
  obtain ⟨_, hhigh⟩ := hhigh
  obtain ⟨_, hlow⟩ := hlow
  have hhere : read[position] = _ := hbyte
  simp only [hhere, hhigh, hlow, Nat.div_add_mod, UInt8.ofNat_toNat]

/-- The characters of a target from which its address is read. -/
def hexDigits (key : String) : List Char := (vmTarget key).filter isAsciiHexdigit

/-- **Addresses decode back.** However its twelve digits are written, in either
case and with anything in between, the address a target spells is the one its
script is sent to. And whatever the key, finding the address does not panic, and
when it is read from digits each of its bytes is one that was parsed. -/
theorem macAddr_of_spells :
    (∀ (mac : Mac) (target : String), Spells (mac.toList.flatMap nibbles) target.toList →
      macAddr ("vm:" ++ target) = some mac) ∧
    ∀ key : String, ∃ mac, macAddr key = some mac ∧
      ((utf8 (hexDigits key)).length = 12 → ∀ idx : Fin 6, ∃ pair,
        byteSlice (hexDigits key) (idx.val * 2) (idx.val * 2 + 2) = some pair ∧
          u8FromHex pair = some (mac.get idx)) := by
  constructor
  · intro mac target hspells
    have hdigits := spells_iff.mp hspells
    have hlength : (target.toList.filterMap hexDigit?).length = 12 := by
      rw [hdigits, length_flatMap_nibbles, Vector.length_toList]
    rw [macAddr, vmTarget_append, macOfTarget_of_twelve hlength]
    exact macOfDigits_nibbles (hdigits ▸ map_hexDigit?_filter _)
  · intro key
    by_cases hlength : ((vmTarget key).filterMap hexDigit?).length = 12
    · obtain ⟨mac, hmac, hbytes⟩ := macOfDigits_eq (map_hexDigit?_filter _) hlength
      refine ⟨mac, (macOfTarget_of_twelve hlength).trans hmac, fun _ idx => ?_⟩
      obtain ⟨pair, hslice, hparsed, -⟩ := hbytes idx
      exact ⟨pair, hslice, hparsed⟩
    · exact ⟨broadcastMac, macOfTarget_of_not_twelve hlength, fun hbytes =>
        absurd ((length_utf8_filter _).symm.trans hbytes) hlength⟩

theorem macAddr_of_spells_dotted :
    macAddr ("vm:" ++ "0a:1B-2c 3D.4eé/5F") = some #v[0x0a, 0x1b, 0x2c, 0x3d, 0x4e, 0x5f] :=
  macAddr_of_spells.1 _ _ (spells_iff.mpr (by decide))

/-! ## Broadcasts -/

/-- The digits of `FF:FF:FF:FF:FF:FF`. -/
def broadcastDigits : List Nat := List.replicate 12 15

/-- A target that asks for every device: one of the two words in any case, or a
spelling of the address that means all. -/
def AsksForAll (target : List Char) : Prop :=
  eqIgnoreAsciiCase target "broadcast".toList = true ∨
    eqIgnoreAsciiCase target "all".toList = true ∨ Spells broadcastDigits target

/-- The digits of an address whose bytes are all 255 are all 15. -/
theorem eq_broadcastDigits {digits : List Nat} (hlength : digits.length = 12)
    (hsmall : ∀ value ∈ digits, value < 16)
    (hbytes : ∀ idx : Fin 6,
      UInt8.ofNat (16 * digits[idx.val * 2] + digits[idx.val * 2 + 1]) = 0xFF) :
    digits = broadcastDigits := by
  have hvalues : ∀ idx : Fin 6, digits[idx.val * 2] = 15 ∧ digits[idx.val * 2 + 1] = 15 := by
    intro idx
    have hhigh := hsmall _ (List.getElem_mem (by omega : idx.val * 2 < digits.length))
    have hlow := hsmall _ (List.getElem_mem (by omega : idx.val * 2 + 1 < digits.length))
    have hbyte := congrArg UInt8.toNat (hbytes idx)
    rw [UInt8.toNat_ofNat'] at hbyte
    have hvalue : UInt8.toNat 0xFF = 255 := rfl
    omega
  refine List.eq_replicate_iff.mpr ⟨hlength, fun value hmem => ?_⟩
  obtain ⟨position, hposition, rfl⟩ := List.getElem_of_mem hmem
  obtain ⟨hhigh, hlow⟩ := hvalues ⟨position / 2, by omega⟩
  rcases Nat.mod_two_eq_zero_or_one position with heven | hodd
  · have hsame : position = position / 2 * 2 := by omega
    simpa only [← hsame] using hhigh
  · have hsame : position = position / 2 * 2 + 1 := by omega
    simpa only [← hsame] using hlow

/-- **When a script goes to every device.** Its target asks for all of them, or
it does not have twelve hexadecimal digits. -/
theorem macAddr_eq_broadcastMac_iff (key : String) :
    macAddr key = some broadcastMac ↔
      AsksForAll (vmTarget key) ∨ (hexDigits key).length ≠ 12 := by
  rw [hexDigits, length_filter_isAsciiHexdigit, macAddr]
  constructor
  · intro hbroadcast
    by_cases hlength : ((vmTarget key).filterMap hexDigit?).length = 12
    · obtain ⟨mac, hmac, hbytes⟩ := macOfDigits_eq (map_hexDigit?_filter _) hlength
      rw [macOfTarget_of_twelve hlength, hmac, Option.some_inj] at hbroadcast
      refine Or.inl (Or.inr (Or.inr (spells_iff.mpr (eq_broadcastDigits hlength ?_ fun idx => ?_))))
      · intro value hmem
        obtain ⟨char, -, hchar⟩ := List.mem_filterMap.mp hmem
        exact hexDigit?_lt hchar
      · obtain ⟨-, -, -, hbyte⟩ := hbytes idx
        rw [← hbyte, hbroadcast]
        exact Vector.getElem_replicate idx.isLt
    · exact Or.inr hlength
  · rintro ((hword | hword | hspells) | hlength)
    · rw [macOfTarget, hword, Bool.true_or, if_pos rfl]
    · rw [macOfTarget, hword, Bool.or_true, if_pos rfl]
    · have hdigits := spells_iff.mp hspells
      rw [macOfTarget_of_twelve (by rw [hdigits]; rfl)]
      refine macOfDigits_nibbles ((map_hexDigit?_filter _).trans ?_)
      rw [hdigits]
      rfl
    · exact macOfTarget_of_not_twelve hlength

/-- Ten digits and none of the words, and the script goes to every device. -/
theorem broadcast_of_tenDigits :
    isVm "vm:AA:BB:CC:DD:EE" = true ∧ macAddr "vm:AA:BB:CC:DD:EE" = some broadcastMac ∧
      ¬AsksForAll (vmTarget "vm:AA:BB:CC:DD:EE") := by
  refine ⟨by decide, by decide, ?_⟩
  rw [AsksForAll, spells_iff]
  decide

end ServerGo.Analysis
