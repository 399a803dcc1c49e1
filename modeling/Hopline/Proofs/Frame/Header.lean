import Hopline.Frame.Wire
import Hopline.Proofs.Codec.Reader

/-! The six bytes of a header. Every bit of them belongs to exactly one field, so a
header determines its bytes and six bytes determine a header. -/

namespace Hopline

open Codec

/-- The byte that holds a size in its low six bits and the flags above them. -/
def packedByte (size : UInt8) (flags : Flags) : UInt8 :=
  UInt8.ofNat (size.toNat % 64 + 64 * flags.bits.toNat)

/-- The bytes of a header on the line. -/
def Header.bytes (header : Header) : Bytes :=
  littleEndian 2 header.destination.toNat ++ littleEndian 2 header.source.toNat ++
    [packedByte header.size header.flags, header.ttl]

theorem Header.length_bytes (header : Header) : header.bytes.length = headerSize := by
  simp only [bytes, List.length_append, length_littleEndian, List.length_cons, List.length_nil, headerSize]

theorem Flags.toNat_bits_lt (flags : Flags) : flags.bits.toNat < 4 := by
  obtain ⟨write, request⟩ := flags
  cases write <;> cases request <;> decide

theorem Flags.bits_ofBits {bits : UInt8} (small : bits.toNat < 4) : (Flags.ofBits bits).bits = bits := by
  have known : bits = 0 ∨ bits = 1 ∨ bits = 2 ∨ bits = 3 := by
    simp only [← UInt8.toNat_inj, UInt8.toNat_ofNat]
    omega
  rcases known with rfl | rfl | rfl | rfl <;> rfl

theorem toNat_packedByte (size : UInt8) (flags : Flags) :
    (packedByte size flags).toNat = size.toNat % 64 + 64 * flags.bits.toNat := by
  have small := flags.toNat_bits_lt
  rw [packedByte, UInt8.toNat_ofNat']
  omega

theorem toNat_lowSix (packed : UInt8) : (packed &&& 0x3F).toNat = packed.toNat % 64 := by
  rw [UInt8.toNat_and]
  exact Nat.and_two_pow_sub_one_eq_mod packed.toNat 6

theorem toNat_highTwo (packed : UInt8) : (packed >>> 6).toNat = packed.toNat / 64 := by
  rw [UInt8.toNat_shiftRight]
  exact Nat.shiftRight_eq_div_pow packed.toNat 6

theorem packedByte_unpacked (packed : UInt8) :
    packedByte (packed &&& 0x3F) (Flags.ofBits (packed >>> 6)) = packed := by
  have bound := packed.toNat_lt
  have small : (packed >>> 6).toNat < 4 := by
    rw [toNat_highTwo]
    omega
  rw [← UInt8.toNat_inj, toNat_packedByte, Flags.bits_ofBits small, toNat_lowSix, toNat_highTwo]
  omega

theorem lowBits_packedByte (size : UInt8) (flags : Flags) :
    lowBits (packedByte size flags) 8 = lowBits size sizeBits ++ lowBits flags.bits flagBits := by
  have small := flags.toNat_bits_lt
  have wide : (lowBits size sizeBits ++ lowBits flags.bits flagBits).length = 8 := by
    rw [List.length_append, length_lowBits, length_lowBits]
    rfl
  have value : ofBits (lowBits size sizeBits ++ lowBits flags.bits flagBits) =
      size.toNat % 64 + 64 * flags.bits.toNat := by
    rw [ofBits_append, length_lowBits, ofBits_lowBits, ofBits_lowBits,
      Nat.mod_eq_of_lt (show flags.bits.toNat < 2 ^ flagBits from small)]
    rfl
  rw [packedByte, ← value]
  conv => lhs; rw [← wide]
  exact lowBits_ofBits wide.le

theorem ofBits_size {size : UInt8} (small : size.toNat ≤ maxPayload) :
    UInt8.ofNat (ofBits (lowBits size sizeBits)) = size := by
  have bound : size.toNat < 2 ^ sizeBits := Nat.lt_succ_of_le small
  rw [ofBits_lowBits, Nat.mod_eq_of_lt bound, UInt8.ofNat_toNat]

theorem ofBits_flags (flags : Flags) :
    Flags.ofBits (UInt8.ofNat (ofBits (lowBits flags.bits flagBits))) = flags := by
  rw [ofBits_lowBits, Nat.mod_eq_of_lt (show flags.bits.toNat < 2 ^ flagBits from flags.toNat_bits_lt),
    UInt8.ofNat_toNat, Flags.ofBits_bits]

theorem Header.read_bytes {header : Header} (small : header.size.toNat ≤ maxPayload) :
    (Header.read (Reader.ofInput header.bytes)).2 = some header := by
  have valid : ((Reader.ofInput header.bytes).setOrder .little).Valid := Reader.valid_ofInput header.bytes
  have found : ((Reader.ofInput header.bytes).setOrder .little).rest =
      ByteOrder.little.arrange (littleEndian 2 header.destination.toNat) ++
        (littleEndian 2 header.source.toNat ++ [packedByte header.size header.flags, header.ttl]) :=
    List.append_assoc _ _ _
  obtain ⟨first, destination, reads⟩ := Reader.read16_of_rest valid rfl rfl found
  obtain ⟨aligned, rest⟩ := reads.rest found
  obtain ⟨second, source, reads'⟩ := Reader.read16_of_rest reads.valid reads.sound reads.order rest
  obtain ⟨aligned, rest⟩ := reads'.rest rest
  have packed : second.unread = lowBits header.size sizeBits ++
      (lowBits header.flags.bits flagBits ++ bitString [header.ttl]) := by
    rw [Reader.unread_of_aligned aligned, rest, bitString_cons, lowBits_packedByte, List.append_assoc]
  obtain ⟨third, size, reads⟩ := Reader.readBits_of_unread reads'.valid reads'.sound
    (by rw [length_lowBits]; decide) (by rw [length_lowBits]; decide) packed
  have packed : third.unread = lowBits header.flags.bits flagBits ++ bitString [header.ttl] :=
    List.append_cancel_left (reads.unread.symm.trans packed)
  obtain ⟨fourth, flags, reads⟩ := Reader.readBits_of_unread reads.valid reads.sound
    (by rw [length_lowBits]; decide) (by rw [length_lowBits]; decide) packed
  have last : fourth.unread = bitString [header.ttl] :=
    List.append_cancel_left (reads.unread.symm.trans packed)
  obtain ⟨_, rest⟩ := Reader.rest_of_unread reads.valid last
  obtain ⟨fifth, ttl, _⟩ := Reader.read8_of_rest reads.valid reads.sound rest
  rw [length_lowBits] at size flags
  simp only [Header.read, destination, source, size, flags, ttl, ofBits_size small, ofBits_flags,
    Option.pure_def, Option.bind_eq_bind, Option.bind_some]

/-- Peeking looks at nothing but the header. -/
theorem Header.peek_bytes {header : Header} (small : header.size.toNat ≤ maxPayload) (rest : Bytes) :
    Header.peek (header.bytes ++ rest) = some header := by
  have enough : ¬(header.bytes ++ rest).length < headerSize := by
    rw [List.length_append, header.length_bytes]
    omega
  rw [peek, if_neg enough, ← header.length_bytes, List.take_left]
  exact read_bytes small

/-- Any six bytes are a header, and its size is what the fifth byte announces. -/
theorem exists_header {source : Bytes} (enough : headerSize ≤ source.length) :
    ∃ header : Header, header.size = source.getD 4 0 &&& 0x3F ∧ source = header.bytes ++ source.drop headerSize := by
  match source, enough with
  | low :: high :: low' :: high' :: packed :: ttl :: rest, _ =>
    let header : Header :=
      { destination := UInt16.ofNat (ofLittleEndian [low, high])
        source := UInt16.ofNat (ofLittleEndian [low', high'])
        size := packed &&& 0x3F
        flags := Flags.ofBits (packed >>> 6)
        ttl }
    have word (first second : UInt8) :
        littleEndian 2 (UInt16.ofNat (ofLittleEndian [first, second])).toNat = [first, second] := by
      have bound : ofLittleEndian [first, second] < 256 ^ 2 := ofLittleEndian_lt [first, second]
      rw [UInt16.toNat_ofNat', show 2 ^ 16 = 256 ^ 2 from rfl, Nat.mod_eq_of_lt bound]
      exact littleEndian_ofLittleEndian [first, second]
    refine ⟨header, rfl, ?_⟩
    simp only [Header.bytes, header, word, packedByte_unpacked]
    rfl

/-- The fifth byte alone announces the size. -/
theorem exists_peek {source : Bytes} (enough : headerSize ≤ source.length) :
    ∃ header : Header, Header.peek source = some header ∧ source = header.bytes ++ source.drop headerSize ∧
      header.size = source.getD 4 0 &&& 0x3F ∧ header.size.toNat ≤ maxPayload := by
  obtain ⟨header, size, found⟩ := exists_header enough
  have small : header.size.toNat ≤ maxPayload := by
    have low := (source.getD 4 0).toNat.mod_lt (show 0 < 64 by omega)
    rw [size, toNat_lowSix]
    exact Nat.le_of_lt_succ low
  refine ⟨header, ?_, found, size, small⟩
  rw [found]
  exact Header.peek_bytes small _

end Hopline
