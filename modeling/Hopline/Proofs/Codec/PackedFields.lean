import Hopline.Proofs.Codec.Capacity
import Hopline.Proofs.Codec.Reader

/-! Packed fields as one number. However wide the fields are and wherever they cross from one byte
to the next, the bytes that they fill are the digits of the number in which each field stands just
above the one before. A reader may cut that number up in any other way. -/

namespace Hopline

/-- Bytes are the same number whether taken digit by digit or bit by bit. -/
theorem ofBits_bitString (bytes : Bytes) : ofBits (bitString bytes) = ofLittleEndian bytes := by
  induction bytes with
  | nil => rfl
  | cons byte rest ih =>
    have whole := ofBits_lowBits byte 8
    rw [Nat.mod_eq_of_lt byte.toNat_lt] at whole
    rw [bitString_cons, ofBits_append, whole, length_lowBits, ih]
    rfl

theorem ofBits_append_mod (low high : List Bool) : ofBits (low ++ high) % 2 ^ low.length = ofBits low := by
  rw [ofBits_append, Nat.add_mul_mod_self_left, Nat.mod_eq_of_lt (ofBits_lt low)]

theorem ofBits_append_div (low high : List Bool) : ofBits (low ++ high) / 2 ^ low.length = ofBits high := by
  rw [ofBits_append, Nat.add_mul_div_left _ _ (Nat.two_pow_pos _), Nat.div_eq_of_lt (ofBits_lt low), Nat.zero_add]

theorem padding_add_mul (bytes count : Nat) : padding (8 * bytes + count) = padding count := by
  rw [padding, padding, Nat.mul_add_mod]

namespace Codec

/-- How many bits a packed field may have. -/
structure FieldWidth where
  bits : Nat
  least : 1 ≤ bits
  most : bits ≤ 8

/-- A value and how many of its lowest bits are packed. -/
structure PackedField where
  value : UInt8
  width : FieldWidth

namespace FieldWidth

def total (widths : List FieldWidth) : Nat := (widths.map bits).sum

/-- The fields of the given widths that a number holds, from its lowest bit on. -/
def slices (number : Nat) (widths : List FieldWidth) : List Nat :=
  List.ofFn fun index : Fin widths.length =>
    number / 2 ^ total (widths.take index) % 2 ^ widths[index].bits

theorem total_cons (width : FieldWidth) (rest : List FieldWidth) :
    total (width :: rest) = width.bits + total rest := List.sum_cons

theorem slices_cons (number : Nat) (width : FieldWidth) (rest : List FieldWidth) :
    slices number (width :: rest) = number % 2 ^ width.bits :: slices (number / 2 ^ width.bits) rest := by
  have lowest : number / 2 ^ total [] = number := Nat.div_one number
  unfold slices
  rw [List.ofFn_succ]
  simp only [Fin.getElem_fin, Fin.val_zero, Fin.val_succ, List.getElem_cons_zero, List.getElem_cons_succ,
    List.take_zero, List.take_succ_cons, total_cons, lowest, Nat.pow_add, Nat.div_div_eq_div_mul]

end FieldWidth

namespace PackedField

def toStep (field : PackedField) : WriteStep := .bits field.value field.width.bits

def bitCount (fields : List PackedField) : Nat := FieldWidth.total (fields.map width)

/-- The number that fields make up, each above those before it. -/
def number (fields : List PackedField) : Nat :=
  ∑ index : Fin fields.length,
    fields[index].value.toNat % 2 ^ fields[index].width.bits * 2 ^ bitCount (fields.take index)

def bits (fields : List PackedField) : List Bool :=
  fields.flatMap fun field => lowBits field.value field.width.bits

theorem isField_toStep (fields : List PackedField) : ∀ step ∈ fields.map toStep, step.IsField := by
  intro step member
  obtain ⟨field, -, rfl⟩ := List.mem_map.mp member
  exact ⟨field.width.least, field.width.most⟩

theorem length_bits (fields : List PackedField) : (bits fields).length = bitCount fields := by
  simp only [bits, List.length_flatMap, length_lowBits, bitCount, FieldWidth.total, List.map_map]
  rfl

theorem bitCount_cons (field : PackedField) (rest : List PackedField) :
    bitCount (field :: rest) = field.width.bits + bitCount rest := FieldWidth.total_cons _ _

theorem number_cons (field : PackedField) (rest : List PackedField) :
    number (field :: rest) =
      field.value.toNat % 2 ^ field.width.bits + 2 ^ field.width.bits * number rest := by
  have lowest : 2 ^ bitCount [] = 1 := rfl
  show ∑ index : Fin (rest.length + 1), (field :: rest)[index].value.toNat % 2 ^ (field :: rest)[index].width.bits *
    2 ^ bitCount ((field :: rest).take index) = _
  rw [Fin.sum_univ_succ, number, Finset.mul_sum]
  simp only [Fin.getElem_fin, Fin.val_zero, Fin.val_succ, List.getElem_cons_zero, List.getElem_cons_succ,
    List.take_zero, List.take_succ_cons, bitCount_cons, lowest, Nat.mul_one, Nat.pow_add]
  congr 1
  apply Finset.sum_congr rfl
  intro index _
  exact Nat.mul_left_comm _ _ _

theorem ofBits_bits (fields : List PackedField) : ofBits (bits fields) = number fields := by
  induction fields with
  | nil => rfl
  | cons field rest ih =>
    have split : bits (field :: rest) = lowBits field.value field.width.bits ++ bits rest := List.flatMap_cons
    rw [split, ofBits_append, ofBits_lowBits, length_lowBits, ih, number_cons]

theorem layout_toStep (order : ByteOrder) (count : Nat) (fields : List PackedField) :
    layout order count (fields.map toStep) = bits fields := by
  induction fields generalizing count with
  | nil => rfl
  | cons field rest ih => exact congrArg (lowBits field.value field.width.bits ++ ·) (ih _)

end PackedField

namespace Writer

variable {writer : Writer}

/-- A cursor that some operations have brought where it is. -/
inductive Reached : Writer → Prop
  | inRegion (region : Bytes) (script : List WriteStep) : Reached ((ofRegion region).run script)
  | intoSink (script : List WriteStep) : Reached (ofSink.run script)

theorem Reached.valid (reached : writer.Reached) : writer.Valid := by
  cases reached with
  | inRegion region script => exact (keeps_run (valid_ofRegion region) script).valid
  | intoSink script => exact (keeps_run valid_ofSink script).valid

theorem Writes.placed {after : Writer} {added : List Bool} {field : Bytes} (written : Writes writer added after)
    (placed : writer.Placed) (output : after.output = writer.output ++ field) :
    after.position = writer.position + field.length ∧
      after.destination = writer.destination.place writer.position field := by
  have position : after.position = writer.position + field.length := by
    rw [← written.valid.counted, output, List.length_append, placed.counted]
  refine ⟨position, ?_⟩
  obtain ⟨count, moved, ahead⟩ := written.moved
  have passed : count = field.length := by omega
  have region := written.region
  have contents := contents_eq after
  unfold inRegion at region
  rw [output, ahead, passed, Writer.output, Writer.ahead] at contents
  cases kind : writer.destination <;> cases kind' : after.destination <;> simp only [kind, kind'] at region contents
  case region.region old new =>
    rw [List.drop_drop] at contents
    exact congrArg Destination.region contents
  case sink.sink old new =>
    rw [List.drop_nil, List.append_nil] at contents
    exact congrArg Destination.sink contents
  all_goals cases region

/-- Fields packed from a byte boundary on commit their bits, filled up with zeros. -/
theorem exists_packed (valid : writer.Valid) (sound : writer.fault = none) (aligned : writer.staged = 0)
    (fields : List PackedField) (room : (PackedField.bitCount fields + 7) / 8 ≤ writer.remaining) :
    let after := (writer.run (fields.map PackedField.toStep)).flush
    ∃ packed : Bytes, after.fault = none ∧ after.position = writer.position + packed.length ∧
      after.destination = writer.destination.place writer.position packed ∧
      bitString packed = PackedField.bits fields ++ padding (PackedField.bitCount fields) := by
  intro after
  have inside := valid.inside
  have before : writer.bits.length = 8 * writer.position := by
    rw [Writer.length_bits valid.toPlaced, aligned, Nat.add_zero]
  have laid : Lays writer (PackedField.bits fields ++ padding (PackedField.bitCount fields)) after := by
    have laid := lays_finish valid sound (PackedField.isField_toStep fields)
    rwa [encoding, PackedField.layout_toStep, before, padding_add_mul, PackedField.length_bits] at laid
  have fits : after.fault = none := by
    rw [laid.sound_iff, before, List.length_append, PackedField.length_bits, padding, List.length_replicate]
    unfold remaining at room
    omega
  have written := laid.writes fits
  have whole : after.staged = 0 := staged_flush (sound_before List.prefix_rfl fits)
  have same : bitString after.output =
      bitString writer.output ++ (PackedField.bits fields ++ padding (PackedField.bitCount fields)) := by
    rw [← bits_of_aligned whole, written.bits, bits_of_aligned aligned]
  obtain ⟨packed, output, filled⟩ := exists_eq_append_of_bitString same
  obtain ⟨position, destination⟩ := written.placed valid.toPlaced output
  exact ⟨packed, fits, position, destination, filled.symm⟩

end Writer

namespace Reader

variable {reader : Reader}

theorem perform_bits_of_unread (valid : reader.Valid) (sound : reader.fault = none) (width : FieldWidth)
    {bits later : List Bool} (found : reader.unread = bits ++ later) (wide : width.bits ≤ bits.length) :
    ∃ after, Reads reader (bits.take width.bits) after ∧
      reader.perform (.bits width.bits) = (after, some (.number (ofBits bits % 2 ^ width.bits : Nat))) := by
  have size : (bits.take width.bits).length = width.bits := List.length_take_of_le wide
  rw [← List.take_append_drop width.bits bits, List.append_assoc] at found
  obtain ⟨after, read, reads⟩ := readBits_of_unread valid sound (width.least.trans_eq size.symm)
    (size.trans_le width.most) found
  have lowest := ofBits_append_mod (bits.take width.bits) (bits.drop width.bits)
  rw [List.take_append_drop, size] at lowest
  rw [size] at read
  have performed : reader.perform (.bits width.bits) =
      (after, some (.number (UInt8.ofNat (ofBits (bits.take width.bits))).toNat)) := by
    rw [perform, read]
    rfl
  refine ⟨after, reads, ?_⟩
  rw [performed, toNat_ofBits (size.trans_le width.most), lowest]

/-- Whatever the widths, their reads cut one number up. -/
theorem run_bits_of_unread (valid : reader.Valid) (sound : reader.fault = none) {bits later : List Bool}
    (found : reader.unread = bits ++ later) (widths : List FieldWidth) (total : FieldWidth.total widths = bits.length) :
    ∃ after, Reads reader bits after ∧ reader.run (widths.map fun width => .bits width.bits) =
      (after, (FieldWidth.slices (ofBits bits) widths).map fun slice => some (.number slice)) := by
  induction widths generalizing reader bits with
  | nil =>
    obtain rfl := List.eq_nil_of_length_eq_zero total.symm
    exact ⟨reader, .refl valid sound, rfl⟩
  | cons width rest ih =>
    rw [FieldWidth.total_cons] at total
    have wide : width.bits ≤ bits.length := by omega
    obtain ⟨middle, reads, read⟩ := perform_bits_of_unread valid sound width found wide
    have ahead : middle.unread = bits.drop width.bits ++ later := by
      have unread := reads.unread
      rw [found, ← List.take_append_drop width.bits bits, List.append_assoc] at unread
      simpa using unread.symm
    obtain ⟨after, reads', run⟩ := ih reads.valid reads.sound ahead (by rw [List.length_drop]; omega)
    have above := ofBits_append_div (bits.take width.bits) (bits.drop width.bits)
    rw [List.take_append_drop, List.length_take_of_le wide] at above
    refine ⟨after, ?_, ?_⟩
    · rw [← List.take_append_drop width.bits bits]
      exact reads.trans reads'
    · rw [List.map_cons, Reader.run, read, FieldWidth.slices_cons, above]
      simp only [run, List.map_cons]

theorem seek_ofInput (front back : Bytes) :
    let reader := (ofInput (front ++ back)).seek front.length
    reader.Valid ∧ reader.fault = none ∧ reader.input = front ++ back ∧ reader.unread = bitString back := by
  have inside : (ofInput (front ++ back)).position + front.length ≤ (front ++ back).length := by
    show 0 + front.length ≤ _
    rw [List.length_append]
    omega
  intro reader
  have moved : reader = { (ofInput (front ++ back)).align with position := 0 + front.length } := seek_of_room rfl inside
  rw [moved, Nat.zero_add]
  refine ⟨⟨?_, Nat.zero_lt_succ 7⟩, rfl, rfl, ?_⟩
  · simp [ofInput, align]
  · rw [unread_of_aligned rfl]
    exact congrArg bitString List.drop_left

/-- What is left of the last packed byte does not keep the cursor from standing behind it. -/
theorem position_of_unread (valid : reader.Valid) {front back : Bytes} {count : Nat} (input : reader.input = front ++ back)
    (unread : reader.unread.length = (padding count).length + 8 * back.length) : reader.position = front.length := by
  have lengths := length_unread valid
  have partly := valid.partly
  rw [unread, input, List.length_append, padding, List.length_replicate] at lengths
  omega

end Reader

/-- Fields packed from a byte boundary on, and then flushed, commit as many bytes as hold them, and these
are the digits of the one number that the fields make up. Wherever the bytes stand in a message, reads of
any widths that are as many bits in all yield the slices of that number. -/
theorem packed_as_one_number {writer : Writer} (reached : writer.Reached) (sound : writer.fault = none)
    (aligned : writer.staged = 0) (fields : List PackedField)
    (room : (PackedField.bitCount fields + 7) / 8 ≤ writer.remaining) :
    let after := (writer.run (fields.map PackedField.toStep)).flush
    ∃ packed : Bytes, packed.length = (PackedField.bitCount fields + 7) / 8 ∧
      ofLittleEndian packed = PackedField.number fields ∧
      after.outcome = .ok (writer.position + packed.length) ∧
      after.destination = writer.destination.place writer.position packed ∧
      ∀ (front back : Bytes) (widths : List FieldWidth), FieldWidth.total widths = PackedField.bitCount fields →
        let reader := (Reader.ofInput (front ++ (packed ++ back))).seek front.length
        let reading := reader.run (widths.map fun width => .bits width.bits)
        reading.2 = (FieldWidth.slices (PackedField.number fields) widths).map (fun slice => some (.number slice)) ∧
          reading.1.finish.2 = .ok (front.length + packed.length) := by
  intro after
  obtain ⟨packed, fits, position, destination, filled⟩ := Writer.exists_packed reached.valid sound aligned fields room
  have lengths := congrArg List.length filled
  rw [length_bitString, List.length_append, PackedField.length_bits, padding, List.length_replicate] at lengths
  refine ⟨packed, by omega, ?_, Writer.outcome_eq_ok.mpr ⟨fits, position⟩, destination, ?_⟩
  · rw [← ofBits_bitString, filled, ofBits_append, PackedField.ofBits_bits, padding, ofBits_replicate_false,
      Nat.mul_zero, Nat.add_zero]
  · intro front back widths total reader reading
    obtain ⟨valid, read, input, unread⟩ := Reader.seek_ofInput front (packed ++ back)
    rw [bitString_append, filled, List.append_assoc] at unread
    obtain ⟨last, reads, run⟩ :=
      Reader.run_bits_of_unread valid read unread widths (total.trans (PackedField.length_bits fields).symm)
    have results : reading = _ := run
    have left : last.unread = padding (PackedField.bitCount fields) ++ bitString back :=
      List.append_cancel_left (reads.unread.symm.trans unread)
    have read_input : last.input = (front ++ packed) ++ back := by rw [reads.input, input, List.append_assoc]
    have behind : last.unread.length = (padding (PackedField.bitCount fields)).length + 8 * back.length := by
      rw [left, List.length_append, length_bitString]
    have ended : last.position = (front ++ packed).length := Reader.position_of_unread reads.valid read_input behind
    rw [results, PackedField.ofBits_bits]
    refine ⟨rfl, ?_⟩
    simp only [Reader.finish, Reader.outcome, Reader.align, reads.sound, ended, List.length_append]

/-- Four fields, of which two cross a byte boundary, behind a byte of another kind; read back in three. -/
theorem packed_as_one_number_crossing :
    let writer := (Writer.ofRegion (List.replicate 6 0xEE)).run [.unsigned8 0x11]
    let five : FieldWidth := ⟨5, by decide, by decide⟩
    let seven : FieldWidth := ⟨7, by decide, by decide⟩
    let fields : List PackedField := [⟨0x2D, five⟩, ⟨0xFF, seven⟩, ⟨0x5A, five⟩, ⟨0x03, five⟩]
    writer.Reached ∧ writer.fault = none ∧ writer.staged = 0 ∧ (PackedField.bitCount fields + 7) / 8 ≤ writer.remaining ∧
      ∃ packed : Bytes, packed.length = 3 ∧ ofLittleEndian packed = 13 + 127 * 2 ^ 5 + 26 * 2 ^ 12 + 3 * 2 ^ 17 ∧
        (writer.run (fields.map PackedField.toStep)).flush.destination =
          .region ([0x11] ++ packed ++ [0xEE, 0xEE]) ∧
        ((Reader.ofInput packed).run [.bits 8, .bits 7, .bits 7]).2 =
          [some (.number 237), some (.number 47), some (.number 15)] := by
  intro writer five seven fields
  let eight : FieldWidth := ⟨8, by decide, by decide⟩
  have reached : writer.Reached := .inRegion _ _
  have sound : writer.fault = none := by decide +kernel
  have aligned : writer.staged = 0 := by decide +kernel
  have room : (PackedField.bitCount fields + 7) / 8 ≤ writer.remaining := by decide +kernel
  have total : PackedField.number fields = 503789 := by decide +kernel
  obtain ⟨packed, size, number, -, destination, reads⟩ := packed_as_one_number reached sound aligned fields room
  have three : packed.length = 3 := size.trans (by decide +kernel)
  have region : writer.destination = .region [0x11, 0xEE, 0xEE, 0xEE, 0xEE, 0xEE] ∧ writer.position = 1 := by
    decide +kernel
  have slices : FieldWidth.slices 503789 [eight, seven, seven] = [237, 47, 15] := by decide +kernel
  refine ⟨reached, sound, aligned, room, packed, three, number.trans total, ?_, ?_⟩
  · rw [destination, region.1, region.2]
    simp [Destination.place, three]
  · obtain ⟨values, -⟩ := reads [] [] [eight, seven, seven] rfl
    have start : (Reader.ofInput packed).seek 0 = Reader.ofInput packed := by
      simp [Reader.seek, Reader.align, Reader.ofInput]
    rw [List.nil_append, List.append_nil, total, slices] at values
    rw [← start]
    exact values

end Codec

end Hopline
