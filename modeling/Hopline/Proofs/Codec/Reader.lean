import Hopline.Codec.Reader
import Hopline.Proofs.Bits

/-! What the operations of a decoding cursor take off the bits that can still be
read. A field is found as soon as its bits are at the front; bytes are only found
behind the unread bits of the byte before them. -/

namespace Hopline.Codec.Reader

/-- Everything that can still be read. -/
def unread (reader : Reader) : List Bool :=
  lowBits reader.stage reader.staged ++ bitString reader.rest

/-- What holds between any two operations: the cursor stands within its input, and
at least one bit of the fetched byte has been read. -/
structure Valid (reader : Reader) : Prop where
  inside : reader.position ≤ reader.input.length
  partly : reader.staged < 8

/-- A read that succeeded has taken `taken` off the front. -/
structure Reads (before : Reader) (taken : List Bool) (after : Reader) : Prop where
  valid : after.Valid
  sound : after.fault = none
  input : after.input = before.input
  order : after.order = before.order
  unread : before.unread = taken ++ after.unread

theorem valid_ofInput (input : Bytes) : (ofInput input).Valid := ⟨Nat.zero_le _, Nat.zero_lt_succ 7⟩

variable {reader : Reader}

theorem Reads.refl (valid : reader.Valid) (sound : reader.fault = none) : Reads reader [] reader :=
  ⟨valid, sound, rfl, rfl, rfl⟩

theorem Reads.trans {middle after : Reader} {first second : List Bool}
    (earlier : Reads reader first middle) (later : Reads middle second after) :
    Reads reader (first ++ second) after where
  valid := later.valid
  sound := later.sound
  input := later.input.trans earlier.input
  order := later.order.trans earlier.order
  unread := by rw [earlier.unread, later.unread, List.append_assoc]

theorem length_rest (reader : Reader) : reader.rest.length = reader.remaining := List.length_drop

theorem length_unread (valid : reader.Valid) :
    reader.unread.length + 8 * reader.position = 8 * reader.input.length + reader.staged := by
  have inside := valid.inside
  rw [unread, List.length_append, length_lowBits, length_bitString, length_rest, remaining, capacity]
  omega

theorem unread_of_aligned (aligned : reader.staged = 0) : reader.unread = bitString reader.rest := by
  rw [unread, aligned]
  rfl

/-- A cursor that can still read whole bytes has no bits left over. -/
theorem rest_of_unread (valid : reader.Valid) {bytes : Bytes} (whole : reader.unread = bitString bytes) :
    reader.staged = 0 ∧ reader.rest = bytes := by
  have lengths := congrArg List.length whole
  have partly := valid.partly
  rw [unread, List.length_append, length_lowBits, length_bitString, length_bitString] at lengths
  have aligned : reader.staged = 0 := by omega
  exact ⟨aligned, eq_of_bitString_eq ((unread_of_aligned aligned).symm.trans whole)⟩

theorem seek_of_room (sound : reader.fault = none) {count : Nat}
    (room : reader.position + count ≤ reader.input.length) :
    reader.seek count = { reader.align with position := reader.position + count } := by
  have ready : reader.align.fault.isSome = false := by simp only [align, sound, Option.isSome_none]
  simp only [seek, ready, Bool.false_eq_true, ↓reduceIte, ← Int.natCast_add, Int.toNat_natCast]
  exact congrArg (fun position => { reader.align with position }) (Nat.min_eq_left room)

theorem validate_of_sound (sound : reader.fault = none) (hook : Validator) :
    reader.validate hook =
      if hook reader.consumed then reader.align else { reader.align with fault := some .invalidData } := by
  have ready : reader.align.fault = none := sound
  have consumed : reader.align.consumed = reader.consumed := rfl
  simp only [validate, ready, Option.isSome_none, Bool.false_eq_true, ↓reduceIte, consumed, fail, Option.none_or]

/-- Moving on over bytes drops the unread bits of the fetched byte with them. -/
theorem reads_over (valid : reader.Valid) (sound : reader.fault = none) {field rest : Bytes}
    (found : reader.rest = field ++ rest) :
    Reads reader (lowBits reader.stage reader.staged ++ bitString field)
      { reader.align with position := reader.position + field.length } := by
  have inside := valid.inside
  have lengths := congrArg List.length found
  simp only [length_rest, remaining, capacity, List.length_append] at lengths
  have passed : reader.input.drop (reader.position + field.length) = rest := by
    rw [← List.drop_drop]
    exact (congrArg (List.drop _) found).trans List.drop_left
  refine ⟨⟨?_, Nat.zero_lt_succ 7⟩, sound, rfl, rfl, ?_⟩
  · dsimp only [align]
    omega
  · rw [unread, found, bitString_append, unread_of_aligned rfl, List.append_assoc]
    simp only [Reader.rest, align, passed]

theorem Reads.rest {after : Reader} {field rest : Bytes}
    (reads : Reads reader (lowBits reader.stage reader.staged ++ bitString field) after)
    (found : reader.rest = field ++ rest) : after.staged = 0 ∧ after.rest = rest := by
  have unread := reads.unread
  rw [Reader.unread, found, bitString_append, List.append_assoc, List.append_cancel_left_eq,
    List.append_cancel_left_eq] at unread
  exact rest_of_unread reads.valid unread.symm

theorem take_of_rest (valid : reader.Valid) (sound : reader.fault = none) {field rest : Bytes}
    (found : reader.rest = field ++ rest) :
    ∃ after, reader.take field.length = (after, some field) ∧
      Reads reader (lowBits reader.stage reader.staged ++ bitString field) after := by
  have ready : reader.align.fault.isSome = false := by simp only [align, sound, Option.isSome_none]
  have same : reader.align.rest = field ++ rest := found
  have room : ¬reader.align.remaining < field.length := by
    rw [← length_rest, same, List.length_append]
    omega
  refine ⟨_, ?_, reads_over valid sound found⟩
  simp only [take, ready, Bool.false_eq_true, ↓reduceIte, room, same, List.take_left]
  rfl

theorem ofLittleEndian_arrange (order : ByteOrder) (width : Nat) {value : Nat} (small : value < 256 ^ width) :
    ofLittleEndian (order.arrange (order.arrange (littleEndian width value))) = value := by
  rw [ByteOrder.arrange_arrange, ofLittleEndian_littleEndian, Nat.mod_eq_of_lt small]

theorem read8_of_rest (valid : reader.Valid) (sound : reader.fault = none) {value : UInt8} {rest : Bytes}
    (found : reader.rest = [value] ++ rest) :
    ∃ after, reader.read8 = (after, some value) ∧
      Reads reader (lowBits reader.stage reader.staged ++ bitString [value]) after := by
  obtain ⟨after, taken, reads⟩ := take_of_rest valid sound found
  rw [List.length_singleton] at taken
  refine ⟨after, ?_, reads⟩
  simp only [read8, taken, Option.map_some, ofLittleEndian, Nat.mul_zero, Nat.add_zero, UInt8.ofNat_toNat]

theorem read16_of_rest (valid : reader.Valid) (sound : reader.fault = none) {order : ByteOrder}
    (same : reader.order = order) {value : UInt16} {rest : Bytes}
    (found : reader.rest = order.arrange (littleEndian 2 value.toNat) ++ rest) :
    ∃ after, reader.read16 = (after, some value) ∧
      Reads reader (lowBits reader.stage reader.staged ++
        bitString (order.arrange (littleEndian 2 value.toNat))) after := by
  obtain ⟨after, taken, reads⟩ := take_of_rest valid sound found
  rw [ByteOrder.length_arrange, length_littleEndian] at taken
  refine ⟨after, ?_, reads⟩
  simp only [read16, taken, Option.map_some, reads.order, same,
    ofLittleEndian_arrange order 2 value.toNat_lt, UInt16.ofNat_toNat]

theorem read32_of_rest (valid : reader.Valid) (sound : reader.fault = none) {order : ByteOrder}
    (same : reader.order = order) {value : UInt32} {rest : Bytes}
    (found : reader.rest = order.arrange (littleEndian 4 value.toNat) ++ rest) :
    ∃ after, reader.read32 = (after, some value) ∧
      Reads reader (lowBits reader.stage reader.staged ++
        bitString (order.arrange (littleEndian 4 value.toNat))) after := by
  obtain ⟨after, taken, reads⟩ := take_of_rest valid sound found
  rw [ByteOrder.length_arrange, length_littleEndian] at taken
  refine ⟨after, ?_, reads⟩
  simp only [read32, taken, Option.map_some, reads.order, same,
    ofLittleEndian_arrange order 4 value.toNat_lt, UInt32.ofNat_toNat]

theorem readBytes_of_rest (valid : reader.Valid) (sound : reader.fault = none) {order : ByteOrder}
    (same : reader.order = order) {span rest : Bytes} (found : reader.rest = order.arrange span ++ rest) :
    ∃ after, reader.readBytes span.length = (after, some span) ∧
      Reads reader (lowBits reader.stage reader.staged ++ bitString (order.arrange span)) after := by
  obtain ⟨after, taken, reads⟩ := take_of_rest valid sound found
  rw [ByteOrder.length_arrange] at taken
  refine ⟨after, ?_, reads⟩
  simp only [readBytes, taken, Option.map_some, reads.order, same, ByteOrder.arrange_arrange]

theorem takeWhile_text {text : Bytes} (solid : ∀ byte ∈ text, byte ≠ 0) (rest : Bytes) :
    (text ++ 0 :: rest).takeWhile (· != 0) = text := by
  rw [List.takeWhile_append_of_pos (by simpa using solid)]
  simp

/-- Where a text is followed by a zero byte, the cursor ends behind that byte whatever is kept of the text. -/
theorem readString_of_found (sound : reader.fault = none) {text rest : Bytes} {size limit : Nat}
    (solid : ∀ byte ∈ text, byte ≠ 0) (found : reader.rest = text ++ 0 :: rest) (sized : 0 < size) :
    let wanted := text.take (limited text.length limit)
    let kept := wanted.take (size - 1)
    let after := { reader.align with position := reader.position + text.length + 1 }
    reader.readString size limit =
      (if kept.length < wanted.length then after.fail .bufferOverflow else after, some (kept ++ [0])) := by
  have ready : reader.align.fault.isSome = false := by simp only [align, sound, Option.isSome_none]
  have same : reader.align.rest = text ++ 0 :: rest := found
  have ended : text.length ≠ (text ++ 0 :: rest).length := by
    rw [List.length_append, List.length_cons]
    omega
  have sized : size ≠ 0 := by omega
  simp only [readString, ready, Bool.false_eq_true, ↓reduceIte, sized, same, takeWhile_text solid, ended]
  rfl

/-- A string is found where its text is followed by a zero byte, and a destination
with room for the part that is kept gets all of that part. -/
theorem readString_of_rest (valid : reader.Valid) (sound : reader.fault = none) {text rest : Bytes}
    {size limit : Nat} (solid : ∀ byte ∈ text, byte ≠ 0) (found : reader.rest = text ++ 0 :: rest)
    (room : (text.take (limited text.length limit)).length < size) :
    ∃ after, reader.readString size limit = (after, some (text.take (limited text.length limit) ++ [0])) ∧
      Reads reader (lowBits reader.stage reader.staged ++ bitString (text ++ [0])) after := by
  have kept : (text.take (limited text.length limit)).take (size - 1) = text.take (limited text.length limit) :=
    List.take_of_length_le (by omega)
  have whole : reader.rest = (text ++ [0]) ++ rest := by
    rw [found, List.append_assoc, List.singleton_append]
  have moved := reads_over valid sound whole
  refine ⟨_, ?_, moved⟩
  rw [readString_of_found sound solid found (by omega)]
  simp only [kept, Nat.lt_irrefl, ↓reduceIte]
  rw [List.length_append, List.length_singleton]
  rfl

theorem readStagedBit_of_unread (valid : reader.Valid) (sound : reader.fault = none) {bit : Bool}
    {later : List Bool} (found : reader.unread = bit :: later) :
    ∃ after, reader.readStagedBit = (after, some bit) ∧ Reads reader [bit] after := by
  have inside := valid.inside
  have partly := valid.partly
  unfold readStagedBit
  split
  next aligned =>
    rw [unread_of_aligned aligned] at found
    have lengths := length_rest reader
    cases fetched : reader.rest with
    | nil => rw [fetched] at found; cases found
    | cons byte rest =>
      rw [fetched, bitString_cons, lowBits_cons, List.cons_append] at found
      obtain ⟨rfl, same⟩ := List.cons.inj found
      rw [fetched, List.length_cons, remaining, capacity] at lengths
      have passed : reader.input.drop (reader.position + 1) = rest := by
        rw [← List.drop_drop]
        exact congrArg (List.drop 1) fetched
      refine ⟨_, rfl, ⟨⟨?_, Nat.lt_succ_self 7⟩, sound, rfl, rfl, ?_⟩⟩
      · dsimp only
        omega
      · rw [unread_of_aligned aligned, fetched, bitString_cons, lowBits_cons]
        simp only [unread, Reader.rest, passed, List.cons_append, List.nil_append]
  next waiting =>
    obtain ⟨count, same⟩ := Nat.exists_eq_succ_of_ne_zero waiting
    rw [unread, same, lowBits_cons, List.cons_append] at found
    obtain ⟨rfl, _⟩ := List.cons.inj found
    refine ⟨_, rfl, ⟨⟨inside, by dsimp only; omega⟩, sound, rfl, rfl, ?_⟩⟩
    rw [unread, same, lowBits_cons]
    rfl

theorem readStagedBits_of_unread (valid : reader.Valid) (sound : reader.fault = none)
    {bits later : List Bool} (found : reader.unread = bits ++ later) :
    ∃ after, reader.readStagedBits bits.length = (after, some bits) ∧ Reads reader bits after := by
  induction bits generalizing reader with
  | nil => exact ⟨reader, rfl, .refl valid sound⟩
  | cons bit rest ih =>
    obtain ⟨middle, first, reads⟩ := readStagedBit_of_unread valid sound found
    have remaining : middle.unread = rest ++ later := by
      have same := reads.unread.symm.trans found
      exact (List.cons.inj same).2
    obtain ⟨after, last, reads'⟩ := ih reads.valid reads.sound remaining
    refine ⟨after, ?_, reads.trans reads'⟩
    simp only [List.length_cons, readStagedBits, first, last, Option.map_some]

theorem readBits_of_unread (valid : reader.Valid) (sound : reader.fault = none)
    {bits later : List Bool} (least : 1 ≤ bits.length) (most : bits.length ≤ 8)
    (found : reader.unread = bits ++ later) :
    ∃ after, reader.readBits bits.length = (after, some (UInt8.ofNat (ofBits bits))) ∧
      Reads reader bits after := by
  obtain ⟨after, read, reads⟩ := readStagedBits_of_unread valid sound found
  have allowed : ¬(bits.length = 0 ∨ 8 < bits.length) := by omega
  refine ⟨after, ?_, reads⟩
  simp only [readBits, sound, Option.isSome_none, Bool.false_eq_true, ↓reduceIte, allowed, read,
    Option.map_some]

end Hopline.Codec.Reader
