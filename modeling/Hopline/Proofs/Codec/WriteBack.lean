import Hopline.Proofs.Codec.Capacity
import Hopline.Proofs.Codec.ReaderStanding

/-! Writing back what was read. The values that a script of reads yields hold every bit that it has
consumed, but for those left over where a field begins on a byte boundary. The writer makes such bits
zero. Where they were zero in the input too, writing the values back restores what was consumed. -/

namespace Hopline.Codec

namespace ReadStep

/-- Reads of fields and changes of order. -/
def IsField : ReadStep → Prop
  | .align | .seek _ | .validate _ => False
  | _ => True

/-- Fields that begin on a byte boundary. -/
def Aligns : ReadStep → Prop
  | .bit | .bits _ | .flip | .order _ => False
  | _ => True

/-- The step that writes what a read has yielded, in the place of the read. -/
def writeBack : ReadStep → Option Value → Option WriteStep
  | .unsigned8, some (.number value) => some (.unsigned8 (.ofNat value.toNat))
  | .unsigned16, some (.number value) => some (.unsigned16 (.ofNat value.toNat))
  | .unsigned32, some (.number value) => some (.unsigned32 (.ofNat value.toNat))
  | .signed8, some (.number value) => some (.signed8 (.ofInt value))
  | .signed16, some (.number value) => some (.signed16 (.ofInt value))
  | .signed32, some (.number value) => some (.signed32 (.ofInt value))
  | .bytes _, some (.bytes span) => some (.bytes span)
  | .string _ limit, some (.bytes stored) => some (.string stored limit)
  | .bit, some (.bit value) => some (.bit value)
  | .bits width, some (.number value) => some (.bits (.ofNat value.toNat) width)
  | .flip, none => some .flip
  | .order next, none => some (.order next)
  | _, _ => none

end ReadStep

namespace Reader

/-- The text of a string that is read next. -/
def text (reader : Reader) : Bytes := reader.rest.takeWhile (· != 0)

/-- Every unread bit of the last byte is zero. -/
def Drained (reader : Reader) : Prop := ∀ bit ∈ lowBits reader.stage reader.staged, bit = false

instance (reader : Reader) : Decidable reader.Drained :=
  inferInstanceAs (Decidable (∀ bit ∈ lowBits reader.stage reader.staged, bit = false))

/-- A script of reads succeeds without cutting a text short, and drops nothing but zero bits, before a field
that begins on a byte boundary or at its end. -/
inductive Lossless : Reader → List ReadStep → Prop
  | done {reader : Reader} (sound : reader.fault = none) (drained : reader.Drained) : Lossless reader []
  | read {reader : Reader} {step : ReadStep} {rest : List ReadStep} (field : step.IsField)
      (drained : step.Aligns → reader.Drained)
      (uncut : ∀ size limit, step = .string size limit → limited reader.text.length limit = reader.text.length)
      (lossless : Lossless (reader.perform step).1 rest) : Lossless reader (step :: rest)

/-- A read has taken off what a written step lays down behind `count` bits. -/
structure Restores (count : Nat) (before : Reader) (step : ReadStep) (write : WriteStep) : Prop where
  wrote : step.writeBack (before.perform step).2 = some write
  field : write.IsField
  order : (before.perform step).1.order = write.orderAfter before.order
  unread : before.unread = (write.item before.order).bits count ++ (before.perform step).1.unread

variable {reader : Reader} {count : Nat}

theorem sound_of_perform (valid : reader.Valid) {step : ReadStep} (sound : (reader.perform step).1.fault = none) :
    reader.fault = none := by
  rcases ends_perform valid step with ends | ⟨size, limit, after, text, rest, rfl, cut, -⟩
  · generalize reader.perform step = result at ends sound
    cases ends with
    | moves value _ _ early => exact early
    | stays stays => exact absurd sound stays.failed
  · exact cut.early

theorem Lossless.sound {script : List ReadStep} (lossless : reader.Lossless script) (valid : reader.Valid) :
    reader.fault = none := by
  induction lossless with
  | done sound => exact sound
  | read _ _ _ _ ih => exact sound_of_perform valid (ih (stands_perform valid _).1)

theorem Lossless.last {script : List ReadStep} (lossless : reader.Lossless script) :
    (reader.run script).1.fault = none ∧ (reader.run script).1.Drained := by
  induction lossless with
  | done sound drained => exact ⟨sound, drained⟩
  | read _ _ _ _ ih => exact ih

/-- The writer fills its last byte up with as many zero bits as the reader has left over. -/
theorem padding_of_drained (valid : reader.Valid) (drained : reader.Drained)
    (counted : count + reader.staged = 8 * reader.position) :
    padding count = lowBits reader.stage reader.staged := by
  have partly := valid.partly
  have missing : (8 - count % 8) % 8 = reader.staged := by omega
  symm
  rw [padding, missing, List.eq_replicate_iff]
  exact ⟨length_lowBits _ _, drained⟩

theorem exists_field {width : Nat} (sound : (reader.take width).1.fault = none) :
    ∃ field rest, field.length = width ∧ reader.rest = field ++ rest := by
  unfold take at sound
  dsimp only at sound
  split at sound
  next failed => exact absurd sound (Option.isSome_iff_ne_none.mp failed)
  next ready =>
    split at sound
    next short => simp [fail] at sound
    next room =>
      have room : width ≤ reader.rest.length := (Nat.le_of_not_lt room).trans_eq (length_rest reader).symm
      exact ⟨reader.rest.take width, reader.rest.drop width, List.length_take_of_le room,
        (List.take_append_drop _ _).symm⟩

theorem arrange_littleEndian (order : ByteOrder) {field : Bytes} {width : Nat} (size : field.length = width) :
    order.arrange (littleEndian width (ofLittleEndian (order.arrange field) % 256 ^ width)) = field := by
  have arranged := ByteOrder.length_arrange order field
  have small := ofLittleEndian_lt (order.arrange field)
  rw [← size, ← arranged, Nat.mod_eq_of_lt small, littleEndian_ofLittleEndian, ByteOrder.arrange_arrange]

theorem exists_read8 (valid : reader.Valid) (early : reader.fault = none) (sound : (reader.take 1).1.fault = none) :
    ∃ value after, reader.read8 = (after, some value) ∧
      Reads reader (lowBits reader.stage reader.staged ++ bitString [value]) after := by
  obtain ⟨field, rest, size, found⟩ := exists_field sound
  obtain ⟨value, rfl⟩ := List.length_eq_one_iff.mp size
  exact ⟨value, read8_of_rest valid early found⟩

theorem exists_read16 (valid : reader.Valid) (early : reader.fault = none) (sound : (reader.take 2).1.fault = none) :
    ∃ value after, reader.read16 = (after, some value) ∧
      Reads reader (lowBits reader.stage reader.staged ++
        bitString (reader.order.arrange (littleEndian 2 value.toNat))) after := by
  obtain ⟨field, rest, size, found⟩ := exists_field sound
  let value := UInt16.ofNat (ofLittleEndian (reader.order.arrange field))
  have word : reader.order.arrange (littleEndian 2 value.toNat) = field := by
    rw [UInt16.toNat_ofNat']
    exact arrange_littleEndian reader.order size
  exact ⟨value, read16_of_rest valid early rfl (word ▸ found)⟩

theorem exists_read32 (valid : reader.Valid) (early : reader.fault = none) (sound : (reader.take 4).1.fault = none) :
    ∃ value after, reader.read32 = (after, some value) ∧
      Reads reader (lowBits reader.stage reader.staged ++
        bitString (reader.order.arrange (littleEndian 4 value.toNat))) after := by
  obtain ⟨field, rest, size, found⟩ := exists_field sound
  let value := UInt32.ofNat (ofLittleEndian (reader.order.arrange field))
  have word : reader.order.arrange (littleEndian 4 value.toNat) = field := by
    rw [UInt32.toNat_ofNat']
    exact arrange_littleEndian reader.order size
  exact ⟨value, read32_of_rest valid early rfl (word ▸ found)⟩

theorem exists_readBytes (valid : reader.Valid) (early : reader.fault = none) {width : Nat}
    (sound : (reader.take width).1.fault = none) :
    ∃ span after, reader.readBytes width = (after, some span) ∧
      Reads reader (lowBits reader.stage reader.staged ++ bitString (reader.order.arrange span)) after := by
  obtain ⟨field, rest, rfl, found⟩ := exists_field sound
  have turned := ByteOrder.arrange_arrange reader.order field
  have read := readBytes_of_rest valid early rfl (turned.symm ▸ found)
  rw [ByteOrder.length_arrange] at read
  exact ⟨_, read⟩

theorem exists_readString (valid : reader.Valid) {size limit : Nat}
    (uncut : limited reader.text.length limit = reader.text.length)
    (sound : (reader.readString size limit).1.fault = none) :
    ∃ after, reader.readString size limit = (after, some (reader.text ++ [0])) ∧
      Reads reader (lowBits reader.stage reader.staged ++ bitString (reader.text ++ [0])) after ∧
      textField (reader.text ++ [0]) limit = reader.text := by
  have ends := stringRead_readString valid size limit
  generalize reader.readString size limit = result at ends sound
  cases ends with
  | stays stays => exact absurd sound stays.failed
  | cutShort cut => exact absurd (cut.fault.symm.trans sound) nofun
  | @whole after text rest early reads found solid =>
    have same : reader.text = text := by rw [Reader.text, found, takeWhile_text solid]
    rw [same] at uncut ⊢
    have whole : text.take (limited text.length limit) = text := by rw [uncut, List.take_length]
    exact ⟨after, by rw [whole], reads, by rw [textField, takeWhile_text solid, whole]⟩

theorem exists_bits (valid : reader.Valid) (early : reader.fault = none) {count : Nat}
    (sound : (reader.readStagedBits count).1.fault = none) :
    ∃ bits later, bits.length = count ∧ reader.unread = bits ++ later := by
  induction count generalizing reader with
  | zero => exact ⟨[], reader.unread, rfl, rfl⟩
  | succ count ih =>
    cases ahead : reader.unread with
    | nil =>
      rw [unread, List.append_eq_nil_iff] at ahead
      have aligned : reader.staged = 0 := by
        have lengths := congrArg List.length ahead.1
        rwa [length_lowBits] at lengths
      have empty : reader.rest = [] := by
        have lengths := congrArg List.length ahead.2
        rw [length_bitString, List.length_nil] at lengths
        exact List.length_eq_zero_iff.mp (by omega)
      simp [readStagedBits, readStagedBit, aligned, empty, fail, early] at sound
    | cons bit later =>
      obtain ⟨next, read, reads⟩ := readStagedBit_of_unread valid early ahead
      rw [readStagedBits_succ read] at sound
      obtain ⟨bits, last, size, rest⟩ := ih reads.valid reads.sound sound
      have same := reads.unread
      rw [ahead, rest, List.singleton_append] at same
      refine ⟨bit :: bits, last, congrArg Nat.succ size, ?_⟩
      rw [same, List.cons_append]

theorem exists_readBits (valid : reader.Valid) {width : Nat} (sound : (reader.readBits width).1.fault = none) :
    ∃ bits after, bits.length = width ∧ 1 ≤ width ∧ width ≤ 8 ∧
      reader.readBits width = (after, some (UInt8.ofNat (ofBits bits))) ∧ Reads reader bits after := by
  have early : reader.fault = none := by
    cases known : reader.fault with
    | none => rfl
    | some fault => simp [readBits, known] at sound
  have allowed : ¬(width = 0 ∨ 8 < width) := by
    intro refused
    simp [readBits, early, refused, fail] at sound
  have staged : (reader.readBits width).1 = (reader.readStagedBits width).1 := by
    simp only [readBits, early, Option.isSome_none, Bool.false_eq_true, ↓reduceIte, allowed]
  rw [staged] at sound
  obtain ⟨bits, later, rfl, found⟩ := exists_bits valid early sound
  obtain ⟨after, read, reads⟩ := readBits_of_unread valid early (by omega) (by omega) found
  exact ⟨bits, after, rfl, by omega, by omega, read, reads⟩

theorem restores_of_reads {step : ReadStep} {write : WriteStep} {after : Reader} {value : Option Value}
    (performed : reader.perform step = (after, value)) (reads : Reads reader ((write.item reader.order).bits count) after)
    (wrote : step.writeBack value = some write) (isField : write.IsField)
    (order : write.orderAfter reader.order = reader.order) : Restores count reader step write := by
  constructor
  case wrote => rw [performed, wrote]
  case field => exact isField
  case order => rw [performed, order, reads.order]
  case unread => rw [performed, reads.unread]

theorem exists_restores (valid : reader.Valid) (counted : count + reader.staged = 8 * reader.position)
    {step : ReadStep} (field : step.IsField) (drained : step.Aligns → reader.Drained)
    (uncut : ∀ size limit, step = .string size limit → limited reader.text.length limit = reader.text.length)
    (sound : (reader.perform step).1.fault = none) : ∃ write, Restores count reader step write := by
  have early := sound_of_perform valid sound
  -- the bits that a field drops are those that the writer fills in
  have filled (aligns : step.Aligns) (field : Bytes) :
      (Item.field field).bits count = lowBits reader.stage reader.staged ++ bitString field := by
    rw [Item.bits, padding_of_drained valid (drained aligns) counted]
  cases step with
  | unsigned8 =>
    obtain ⟨value, after, read, reads⟩ := exists_read8 valid early sound
    have performed : reader.perform .unsigned8 = (after, some (.number value.toNat)) := by rw [perform, read]; rfl
    exact ⟨.unsigned8 value, restores_of_reads performed (filled trivial _ ▸ reads)
      (by simp [ReadStep.writeBack]) trivial rfl⟩
  | unsigned16 =>
    obtain ⟨value, after, read, reads⟩ := exists_read16 valid early sound
    have performed : reader.perform .unsigned16 = (after, some (.number value.toNat)) := by rw [perform, read]; rfl
    exact ⟨.unsigned16 value, restores_of_reads performed (filled trivial _ ▸ reads)
      (by simp [ReadStep.writeBack]) trivial rfl⟩
  | unsigned32 =>
    obtain ⟨value, after, read, reads⟩ := exists_read32 valid early sound
    have performed : reader.perform .unsigned32 = (after, some (.number value.toNat)) := by rw [perform, read]; rfl
    exact ⟨.unsigned32 value, restores_of_reads performed (filled trivial _ ▸ reads)
      (by simp [ReadStep.writeBack]) trivial rfl⟩
  | signed8 =>
    obtain ⟨value, after, read, reads⟩ := exists_read8 valid early sound
    have performed : reader.perform .signed8 = (after, some (.number value.toInt8.toInt)) := by
      rw [perform, readSigned8, read]; rfl
    exact ⟨.signed8 value.toInt8, restores_of_reads performed (filled trivial _ ▸ reads)
      (by simp [ReadStep.writeBack]) trivial rfl⟩
  | signed16 =>
    obtain ⟨value, after, read, reads⟩ := exists_read16 valid early sound
    have performed : reader.perform .signed16 = (after, some (.number value.toInt16.toInt)) := by
      rw [perform, readSigned16, read]; rfl
    exact ⟨.signed16 value.toInt16, restores_of_reads performed (filled trivial _ ▸ reads)
      (by simp [ReadStep.writeBack]) trivial rfl⟩
  | signed32 =>
    obtain ⟨value, after, read, reads⟩ := exists_read32 valid early sound
    have performed : reader.perform .signed32 = (after, some (.number value.toInt32.toInt)) := by
      rw [perform, readSigned32, read]; rfl
    exact ⟨.signed32 value.toInt32, restores_of_reads performed (filled trivial _ ▸ reads)
      (by simp [ReadStep.writeBack]) trivial rfl⟩
  | bytes width =>
    obtain ⟨span, after, read, reads⟩ := exists_readBytes valid early sound
    have performed : reader.perform (.bytes width) = (after, some (.bytes span)) := by rw [perform, read]; rfl
    exact ⟨.bytes span, restores_of_reads performed (filled trivial _ ▸ reads) rfl trivial rfl⟩
  | string size limit =>
    obtain ⟨after, read, reads, kept⟩ := exists_readString valid (uncut size limit rfl) sound
    have performed : reader.perform (.string size limit) = (after, some (.bytes (reader.text ++ [0]))) := by
      rw [perform, read]; rfl
    have item : (WriteStep.string (reader.text ++ [0]) limit).item reader.order = .field (reader.text ++ [0]) := by
      simp only [WriteStep.item, kept]
    exact ⟨.string (reader.text ++ [0]) limit, restores_of_reads performed
      (item ▸ filled trivial (reader.text ++ [0]) ▸ reads) rfl trivial rfl⟩
  | bit =>
    have sound : (reader.readBits 1).1.fault = none := sound
    obtain ⟨bits, after, size, -, -, read, reads⟩ := exists_readBits valid sound
    obtain ⟨bit, rfl⟩ := List.length_eq_one_iff.mp size
    have performed : reader.perform .bit = (after, some (.bit bit)) := by
      rw [perform, readBit, read]
      cases bit <;> rfl
    exact ⟨.bit bit, restores_of_reads performed reads rfl trivial rfl⟩
  | bits width =>
    obtain ⟨bits, after, rfl, least, most, read, reads⟩ := exists_readBits valid sound
    let value := UInt8.ofNat (ofBits bits)
    have performed : reader.perform (.bits bits.length) = (after, some (.number value.toNat)) := by
      rw [perform, read]; rfl
    have item : (WriteStep.bits value bits.length).item reader.order = .loose bits := by
      rw [WriteStep.item, lowBits_ofBits most]
    exact ⟨.bits value bits.length, restores_of_reads performed (item ▸ reads) (by simp [ReadStep.writeBack])
      ⟨least, most⟩ rfl⟩
  | flip => exact ⟨.flip, rfl, trivial, rfl, rfl⟩
  | order next => exact ⟨.order next, rfl, trivial, rfl, rfl⟩
  | align | seek | validate => exact field.elim

theorem Restores.counted {step : ReadStep} {write : WriteStep} (restores : Restores count reader step write)
    (valid : reader.Valid) (counted : count + reader.staged = 8 * reader.position) :
    count + ((write.item reader.order).bits count).length + (reader.perform step).1.staged =
      8 * (reader.perform step).1.position := by
  obtain ⟨valid', input⟩ := stands_perform valid step
  have before := length_unread valid
  have after := length_unread valid'
  rw [restores.unread, List.length_append] at before
  rw [input] at after
  omega

/-- The values of a script that drops nothing but zeros lay out again what it has consumed. -/
theorem Lossless.exists_layout {script : List ReadStep} (lossless : reader.Lossless script) (valid : reader.Valid)
    (counted : count + reader.staged = 8 * reader.position) :
    ∃ written, List.zipWith ReadStep.writeBack script (reader.run script).2 = written.map some ∧
      (∀ step ∈ written, step.IsField) ∧
      reader.unread = layout reader.order count written ++ (reader.run script).1.unread := by
  -- all that the writer's side needs to know of the bits before is how many of them the reader has consumed
  induction lossless generalizing count with
  | done => exact ⟨[], rfl, nofun, rfl⟩
  | @read reader step rest field drained uncut lossless ih =>
    obtain ⟨valid', -⟩ := stands_perform valid step
    obtain ⟨write, restores⟩ := exists_restores valid counted field drained uncut (lossless.sound valid')
    obtain ⟨written, wrote, fields, unread⟩ := ih valid' (restores.counted valid counted)
    refine ⟨write :: written, ?_, List.forall_mem_cons.mpr ⟨restores.field, fields⟩, ?_⟩
    · exact congrArg₂ List.cons restores.wrote wrote
    · rw [restores.unread, unread, restores.order, layout, List.append_assoc]
      rfl

theorem Lossless.exists_encoding {input : Bytes} {script : List ReadStep} (lossless : (ofInput input).Lossless script) :
    let reading := (ofInput input).run script
    ∃ written, List.zipWith ReadStep.writeBack script reading.2 = written.map some ∧
      (∀ step ∈ written, step.IsField) ∧
      Writer.encoding .native 0 written = bitString (input.take reading.1.position) := by
  intro reading
  have start := valid_ofInput input
  obtain ⟨valid, same⟩ : reading.1.Valid ∧ reading.1.input = input := stands_run start script
  have counted : 0 + (ofInput input).staged = 8 * (ofInput input).position := rfl
  obtain ⟨written, wrote, fields, unread⟩ := lossless.exists_layout start counted
  refine ⟨written, wrote, fields, ?_⟩
  have whole : bitString input = layout .native 0 written ++ reading.1.unread := unread
  have counted : (layout .native 0 written).length + reading.1.staged = 8 * reading.1.position := by
    have lengths := congrArg List.length whole
    have after := length_unread valid
    rw [List.length_append, length_bitString] at lengths
    rw [same] at after
    omega
  have filled := padding_of_drained valid lossless.last.2 counted
  have ahead : reading.1.rest = input.drop reading.1.position := congrArg (List.drop reading.1.position) same
  apply (List.append_left_inj (bitString (input.drop reading.1.position))).mp
  calc Writer.encoding .native 0 written ++ bitString (input.drop reading.1.position)
      = layout .native 0 written ++ (lowBits reading.1.stage reading.1.staged ++ bitString reading.1.rest) := by
        rw [Writer.encoding, Nat.zero_add, filled, ahead, List.append_assoc]
    _ = bitString input := whole.symm
    _ = bitString (input.take reading.1.position) ++ bitString (input.drop reading.1.position) := by
        rw [← bitString_append, List.take_append_drop]

end Reader

/-- Writing back what a lossless script has read, over any region that is long enough, succeeds with the
consumed length and restores the consumed bytes. The rest of the region stays as it is. -/
theorem run_writeBack (input region : Bytes) (script : List ReadStep) (lossless : (Reader.ofInput input).Lossless script)
    (room : ((Reader.ofInput input).run script).1.position ≤ region.length) :
    let reading := (Reader.ofInput input).run script
    let consumed := reading.1.position
    ∃ written, List.zipWith ReadStep.writeBack script reading.2 = written.map some ∧
      let writing := (Writer.ofRegion region).run written
      reading.1.finish.2 = .ok consumed ∧ writing.finish.2 = .ok consumed ∧
      writing.finish.1.destination.contents = input.take consumed ++ region.drop consumed := by
  intro reading consumed
  obtain ⟨written, wrote, fields, encoded⟩ := lossless.exists_encoding
  refine ⟨written, wrote, ?_⟩
  intro writing
  have inside : consumed ≤ input.length := by
    obtain ⟨valid, same⟩ := Reader.stands_run (Reader.valid_ofInput input) script
    exact valid.inside.trans_eq (congrArg List.length same)
  have laid : Writer.Lays (Writer.ofRegion region) (bitString (input.take consumed)) writing.flush :=
    encoded ▸ Writer.lays_finish (Writer.valid_ofRegion region) rfl fields
  have sound : writing.flush.fault = none := by
    rw [laid.sound_iff, length_bitString, List.length_take_of_le inside]
    show (0 + 8 * consumed) / 8 ≤ region.length
    rwa [Nat.zero_add, Nat.mul_div_cancel_left _ (by decide)]
  have filled := laid.writes sound
  obtain ⟨-, output⟩ := Writer.output_of_bits filled.valid filled.bits
  have position : writing.flush.position = consumed := by
    rw [← filled.valid.counted, output, List.length_take_of_le inside]
  refine ⟨?_, Writer.outcome_eq_ok.mpr ⟨sound, position⟩, ?_⟩
  · simp only [Reader.finish, Reader.outcome, Reader.align, reading, consumed, lossless.last.1]
  · show writing.flush.destination.contents = _
    rw [filled.contents, output, position]

/-- A run of bits in which the order turns, a negative number in the turned order, a text as long as its limit,
and bits left over at the end. -/
theorem run_writeBack_mixed :
    let input : Bytes := [0x35, 0x0C, 0xFF, 0xFE, 0x68, 0x69, 0, 1, 7]
    let script : List ReadStep := [.bits 5, .flip, .bits 7, .signed16, .string 4 2, .bit]
    let reading := (Reader.ofInput input).run script
    (Reader.ofInput input).Lossless script ∧ reading.1.position = 8 ∧
      ∃ written, List.zipWith ReadStep.writeBack script reading.2 = written.map some ∧
        let writing := (Writer.ofRegion (List.replicate 10 0xEE)).run written
        writing.finish.2 = .ok 8 ∧ writing.finish.1.destination.contents = input.take 8 ++ [0xEE, 0xEE] := by
  intro input script reading
  have lossless : (Reader.ofInput input).Lossless script := by
    refine .read trivial (fun aligns => aligns.elim) nofun ?_
    refine .read trivial (fun aligns => aligns.elim) nofun ?_
    refine .read trivial (fun aligns => aligns.elim) nofun ?_
    refine .read trivial (fun _ => by decide +kernel) nofun ?_
    refine .read trivial (fun _ => by decide +kernel) ?_ ?_
    · rintro size limit ⟨⟩
      decide +kernel
    refine .read trivial (fun aligns => aligns.elim) nofun ?_
    exact .done (by decide +kernel) (by decide +kernel)
  have position : reading.1.position = 8 := by decide +kernel
  have room : reading.1.position ≤ (List.replicate 10 (0xEE : UInt8)).length := by
    rw [position]
    decide
  obtain ⟨written, wrote, -, finished, contents⟩ := run_writeBack input _ script lossless room
  refine ⟨lossless, position, written, wrote, ?_⟩
  rw [position] at finished contents
  exact ⟨finished, contents⟩

end Hopline.Codec
