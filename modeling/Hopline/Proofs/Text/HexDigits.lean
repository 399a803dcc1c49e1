import Hopline.Proofs.Text.HexText

/-! Bytes that are written in hexadecimal read back as they were. Only sixteen characters are ever
written, and none of them is a blank, a sign or a part of the marker but for the zero. A text that
begins like a marker therefore never goes on like one, and nothing of it is trimmed or skipped. -/

namespace Hopline.Text

/-- A character that every reader of hexadecimal text takes for a digit and for nothing else. -/
structure Spells (char : Char) (digit : Nat) : Prop where
  single : String.utf8EncodeChar char = [UInt8.ofNat char.toNat]
  value : digitValue 16 (UInt8.ofNat char.toNat) = some digit
  notBlank : isBlank char = false
  notSkipped : isBlankByte (UInt8.ofNat char.toNat) = false
  notSign : UInt8.ofNat char.toNat ≠ 0x2B
  notMarker : char ≠ 'x'

theorem spells_digitChar {digit : Nat} (small : digit < 16) : Spells (Nat.digitChar digit) digit := by
  have single : ∀ digit < 16,
      String.utf8EncodeChar (Nat.digitChar digit) = [UInt8.ofNat (Nat.digitChar digit).toNat] := by decide
  have value : ∀ digit < 16, digitValue 16 (UInt8.ofNat (Nat.digitChar digit).toNat) = some digit := by decide
  have apart : ∀ digit < 16,
      isBlank (Nat.digitChar digit) = false ∧ isBlankByte (UInt8.ofNat (Nat.digitChar digit).toNat) = false ∧
        UInt8.ofNat (Nat.digitChar digit).toNat ≠ 0x2B ∧ Nat.digitChar digit ≠ 'x' := by decide
  obtain ⟨notBlank, notSkipped, notSign, notMarker⟩ := apart digit small
  exact ⟨single digit small, value digit small, notBlank, notSkipped, notSign, notMarker⟩

/-- The two characters that a byte is written as. -/
def hexPair (byte : UInt8) : List Char :=
  [Nat.digitChar (byte.toNat / 16), Nat.digitChar (byte.toNat % 16)]

theorem paddedHex_byte (byte : UInt8) : paddedHex 2 byte.toNat = hexPair byte := by
  have bound := byte.toNat_lt
  rcases Nat.lt_or_ge byte.toNat 16 with low | high
  · have digits : hexNumber byte.toNat = [Nat.digitChar byte.toNat] := Nat.toDigits_of_lt_base low
    rw [paddedHex, digits, hexPair, Nat.div_eq_of_lt low, Nat.mod_eq_of_lt low]
    rfl
  · have upper : byte.toNat / 16 < 16 := by omega
    have digits : hexNumber byte.toNat = hexPair byte := by
      rw [hexNumber, Nat.toDigits_of_base_le (by omega) high, Nat.toDigits_of_lt_base upper]
      rfl
    rw [paddedHex, digits]
    rfl

theorem toList_hexBytes (bytes : Bytes) : (hexBytes bytes).toList = bytes.flatMap hexPair := by
  simp only [hexBytes, String.toList_ofList, paddedHex_byte]

theorem exists_spells {bytes : Bytes} {char : Char} (found : char ∈ bytes.flatMap hexPair) :
    ∃ digit, Spells char digit := by
  obtain ⟨byte, -, inside⟩ := List.mem_flatMap.mp found
  have bound := byte.toNat_lt
  rcases List.mem_cons.mp inside with rfl | inside
  · exact ⟨_, spells_digitChar (by omega)⟩
  · rw [List.mem_singleton.mp inside]
    exact ⟨_, spells_digitChar (by omega)⟩

theorem trim_of_notBlank {text : List Char} (solid : ∀ char ∈ text, isBlank char = false) : trim text = text := by
  have kept : ∀ text : List Char, (∀ char ∈ text, isBlank char = false) → text.dropWhile isBlank = text := by
    intro text solid
    cases text with
    | nil => rfl
    | cons char rest => exact List.dropWhile_cons_of_neg (by rw [solid char List.mem_cons_self]; exact Bool.false_ne_true)
  rw [trim, kept text solid, kept text.reverse fun char found => solid char (List.mem_reverse.mp found),
    List.reverse_reverse]

theorem utf8Bytes_ofList {text : List Char}
    (single : ∀ char ∈ text, String.utf8EncodeChar char = [UInt8.ofNat char.toNat]) :
    utf8Bytes (String.ofList text) = text.map fun char => UInt8.ofNat char.toNat := by
  rw [utf8Bytes, String.toList_ofList]
  induction text with
  | nil => rfl
  | cons char rest ih =>
    rw [List.flatMap_cons, single char List.mem_cons_self,
      ih fun other found => single other (List.mem_cons_of_mem char found)]
    rfl

end Hopline.Text

namespace Hopline.Command

open Text

theorem dropMarker?_of_not_mem {marker text : List Char} {char : Char} (wanted : char ∈ marker)
    (absent : char ∉ text) : dropMarker? marker text = none := by
  apply if_neg
  intro marked
  exact absent ((List.isPrefixOf_iff_prefix.mp marked).subset wanted)

theorem hexDigits_hexBytes (bytes : Bytes) :
    hexDigits (hexBytes bytes) = (bytes.flatMap hexPair).map fun char => UInt8.ofNat char.toNat := by
  have whole : trim (bytes.flatMap hexPair) = bytes.flatMap hexPair := by
    apply trim_of_notBlank
    intro char found
    obtain ⟨digit, spelled⟩ := exists_spells found
    exact spelled.notBlank
  have unmarked : dropMarker? ['0', 'x'] (bytes.flatMap hexPair) = none := by
    have wanted : 'x' ∈ ['0', 'x'] := List.mem_cons_of_mem _ List.mem_cons_self
    apply dropMarker?_of_not_mem wanted
    intro found
    obtain ⟨digit, spelled⟩ := exists_spells found
    exact spelled.notMarker rfl
  have single : ∀ char ∈ bytes.flatMap hexPair, String.utf8EncodeChar char = [UInt8.ofNat char.toNat] := by
    intro char found
    obtain ⟨digit, spelled⟩ := exists_spells found
    exact spelled.single
  rw [hexDigits, toList_hexBytes, whole, unmarked, Option.getD_none, utf8Bytes_ofList single, List.filter_eq_self]
  intro byte found
  obtain ⟨char, inside, rfl⟩ := List.mem_map.mp found
  obtain ⟨digit, spelled⟩ := exists_spells inside
  rw [spelled.notSkipped]
  rfl

theorem readPair_of_spells {high low : Char} {upper lower : Nat} (first : Spells high upper) (second : Spells low lower) :
    readPair [UInt8.ofNat high.toNat, UInt8.ofNat low.toNat] = .ok (UInt8.ofNat (upper * 16 + lower)) := by
  have leading : leadingByteValue? (UInt8.ofNat high.toNat) = some upper := (if_neg first.notSign).trans first.value
  exact readPair_eq_ok.mpr ⟨upper, lower, leading, second.value, rfl⟩

theorem readPairs_hexPairs (bytes : Bytes) :
    readPairs ((bytes.flatMap hexPair).map fun char => UInt8.ofNat char.toNat) = .ok bytes := by
  induction bytes with
  | nil => rfl
  | cons byte rest ih =>
    have bound := byte.toNat_lt
    have whole : byte.toNat / 16 * 16 + byte.toNat % 16 = byte.toNat := by omega
    have upper : byte.toNat / 16 < 16 := by omega
    have lower : byte.toNat % 16 < 16 := by omega
    have pair := readPair_of_spells (spells_digitChar upper) (spells_digitChar lower)
    rw [whole, UInt8.ofNat_toNat] at pair
    simp only [List.flatMap_cons, hexPair, List.cons_append, List.nil_append, List.map_cons, readPairs, pair]
    exact congrArg (Except.map (byte :: ·)) ih

theorem length_hexDigits (bytes : Bytes) : (hexDigits (hexBytes bytes)).length = 2 * bytes.length := by
  rw [hexDigits_hexBytes, List.length_map]
  induction bytes with
  | nil => rfl
  | cons byte rest ih =>
    rw [List.flatMap_cons, List.length_append, ih, List.length_cons]
    exact Nat.add_comm _ _

/-- Reading is the inverse of writing. -/
theorem readHex_hexBytes (bytes : Bytes) : readHex (hexBytes bytes) = .ok bytes := by
  have even : (hexDigits (hexBytes bytes)).length % 2 = 0 := by
    rw [length_hexDigits]
    exact Nat.mul_mod_right 2 _
  rw [readHex, even, hexDigits_hexBytes]
  exact readPairs_hexPairs bytes

/-- A text that begins with the digit of the marker is no marked text. -/
example : readHex (hexBytes [0x0A, 0xFF]) = .ok [0x0A, 0xFF] := rfl

end Hopline.Command
