import Hopline.Proofs.Codec.Reader
import Hopline.Proofs.Codec.Script

/-! Reading back what was written. The two cursors cut their bytes differently: the
writer commits a byte when it is full, the reader fetches it at its first bit. What
they keep in common is that the bits written and the bits unread make up the message. -/

namespace Hopline.Codec

/-- A text cut at its first zero byte and, if there is a limit, at the limit. -/
def cutText (text : Bytes) (limit : Nat) : Bytes :=
  if limit = noLimit then text.takeWhile (· != 0) else (text.takeWhile (· != 0)).take limit

/-- The read that takes back what a step lays down. A string goes to any destination
that is larger than its text, and a flush is taken back by dropping unread bits. -/
inductive Mirrors : WriteStep → ReadStep → Prop
  | unsigned8 {value} : Mirrors (.unsigned8 value) .unsigned8
  | unsigned16 {value} : Mirrors (.unsigned16 value) .unsigned16
  | unsigned32 {value} : Mirrors (.unsigned32 value) .unsigned32
  | signed8 {value} : Mirrors (.signed8 value) .signed8
  | signed16 {value} : Mirrors (.signed16 value) .signed16
  | signed32 {value} : Mirrors (.signed32 value) .signed32
  | bytes {span} : Mirrors (.bytes span) (.bytes span.length)
  | string {text limit size} (room : (cutText text limit).length < size) :
      Mirrors (.string text limit) (.string size limit)
  | bit {value} : Mirrors (.bit value) .bit
  | bits {value width} (least : 1 ≤ width) (most : width ≤ 8) : Mirrors (.bits value width) (.bits width)
  | flush : Mirrors .flush (.seek 0)
  | flip : Mirrors .flip .flip
  | order {next} : Mirrors (.order next) (.order next)

/-- What the mirroring read yields: numbers, spans and bits as they were, a bit-field
modulo its width, and a string cut at its first zero byte and at its limit. -/
def WriteStep.value : WriteStep → Option Value
  | .unsigned8 value => some (.number value.toNat)
  | .unsigned16 value => some (.number value.toNat)
  | .unsigned32 value => some (.number value.toNat)
  | .signed8 value => some (.number value.toInt)
  | .signed16 value => some (.number value.toInt)
  | .signed32 value => some (.number value.toInt)
  | .bytes span => some (.bytes span)
  | .string text limit => some (.bytes (cutText text limit ++ [0]))
  | .bit value => some (.bit value)
  | .bits value width => some (.number (value.toNat % 2 ^ width : Nat))
  | .flush | .seek _ | .flip | .order _ | .sign _ => none

theorem Mirrors.isField {write : WriteStep} {read : ReadStep} (mirror : Mirrors write read) : write.IsField := by
  cases mirror with
  | bits least most => exact ⟨least, most⟩
  | _ => trivial

theorem fields_of_mirrored {script : List WriteStep} {reads : List ReadStep}
    (mirrored : List.Forall₂ Mirrors script reads) : ∀ step ∈ script, step.IsField := by
  induction mirrored with
  | nil => simp
  | cons mirror _ ih => exact List.forall_mem_cons.mpr ⟨mirror.isField, ih⟩

/-- A writer has laid out the front of a message and a reader has the rest ahead. -/
structure Lockstep (message : Bytes) (writer : Writer) (reader : Reader) : Prop where
  writing : writer.Valid
  written : writer.fault = none
  reading : reader.Valid
  read : reader.fault = none
  input : reader.input = message
  order : reader.order = writer.order
  shared : bitString message = writer.bits ++ reader.unread

variable {message : Bytes} {writer after : Writer} {reader : Reader}

theorem Lockstep.start (region message : Bytes) :
    Lockstep message (Writer.ofRegion region) (Reader.ofInput message) :=
  ⟨Writer.valid_ofRegion region, rfl, Reader.valid_ofInput message, rfl, rfl, rfl, rfl⟩

theorem Lockstep.advance {taken : List Bool} {reader' : Reader} (lock : Lockstep message writer reader)
    (writes : Writer.Writes writer taken after) (reads : Reader.Reads reader taken reader')
    (order : after.order = writer.order) : Lockstep message after reader' where
  writing := writes.valid
  written := writes.sound
  reading := reads.valid
  read := reads.sound
  input := reads.input.trans lock.input
  order := by rw [reads.order, lock.order, order]
  shared := by rw [lock.shared, writes.bits, reads.unread, List.append_assoc]

theorem Lockstep.found {added : List Bool} (lock : Lockstep message writer reader)
    (writes : Writer.Writes writer added after) (front : after.bits <+: bitString message) :
    ∃ later, reader.unread = added ++ later := by
  obtain ⟨later, same⟩ := front
  rw [writes.bits, lock.shared, List.append_assoc] at same
  exact ⟨later, (List.append_cancel_left same).symm⟩

/-- The reader has as many bits left of its byte as the writer needs to fill its own. -/
theorem Lockstep.staged (lock : Lockstep message writer reader) :
    reader.staged = (padding writer.bits.length).length := by
  have lengths := congrArg List.length lock.shared
  have partly := lock.reading.partly
  rw [List.length_append, Reader.unread, List.length_append, length_bitString, length_bitString,
    length_lowBits] at lengths
  simp only [padding, List.length_replicate]
  omega

/-- A field that is written next stands at the front of the bytes to read, and a read
that takes it keeps in step. -/
theorem Lockstep.field {bytes : Bytes} (lock : Lockstep message writer reader)
    (writes : Writer.Writes writer (padding writer.bits.length ++ bitString bytes) after)
    (front : after.bits <+: bitString message) (order : after.order = writer.order) :
    (∃ rest, reader.rest = bytes ++ rest) ∧
      ∀ reader', Reader.Reads reader (lowBits reader.stage reader.staged ++ bitString bytes) reader' →
        Lockstep message after reader' := by
  obtain ⟨later, found⟩ := lock.found writes front
  rw [Reader.unread, List.append_assoc] at found
  obtain ⟨filled, same⟩ := List.append_inj found (by rw [length_lowBits, lock.staged])
  obtain ⟨rest, same, _⟩ := exists_eq_append_of_bitString same
  refine ⟨⟨rest, same⟩, fun reader' reads => ?_⟩
  rw [filled] at reads
  exact lock.advance writes reads order

theorem Lockstep.readBits {value : UInt8} {width : Nat} (lock : Lockstep message writer reader)
    (least : 1 ≤ width) (most : width ≤ 8) (writes : Writer.Writes writer (lowBits value width) after)
    (front : after.bits <+: bitString message) (order : after.order = writer.order) :
    ∃ reader', reader.readBits width = (reader', some (UInt8.ofNat (value.toNat % 2 ^ width))) ∧
      Lockstep message after reader' := by
  obtain ⟨later, found⟩ := lock.found writes front
  have wide := length_lowBits value width
  obtain ⟨reader', taken, reads⟩ :=
    Reader.readBits_of_unread lock.reading lock.read (by omega) (by omega) found
  rw [wide, ofBits_lowBits] at taken
  exact ⟨reader', taken, lock.advance writes reads order⟩

theorem textField_eq_cutText (text : Bytes) (limit : Nat) : textField text limit = cutText text limit := by
  unfold textField cutText limited
  dsimp only
  split
  · exact List.take_length
  · rw [← List.take_take]
    exact List.take_of_length_le (List.length_take_le' _ _)

theorem textField_solid (text : Bytes) (limit : Nat) : ∀ byte ∈ textField text limit, byte ≠ 0 := by
  intro byte member
  have solid : (text.takeWhile (· != 0)).all (· != 0) := List.all_takeWhile
  simpa using List.all_eq_true.mp solid byte (List.mem_of_mem_take member)

theorem take_textField (text : Bytes) (limit : Nat) :
    (textField text limit).take (limited (textField text limit).length limit) = textField text limit := by
  apply List.take_of_length_le
  unfold textField limited
  dsimp only
  rw [List.length_take]
  split <;> omega

theorem Lockstep.step {write : WriteStep} {read : ReadStep} (lock : Lockstep message writer reader)
    (mirror : Mirrors write read) (sound : (writer.perform write).fault = none)
    (front : (writer.perform write).bits <+: bitString message) :
    ∃ reader', reader.perform read = (reader', write.value) ∧
      Lockstep message (writer.perform write) reader' := by
  have writes := (Writer.lays_perform lock.writing lock.written mirror.isField).writes sound
  have order := Writer.order_perform writer mirror.isField
  cases mirror with
  | unsigned8 =>
    obtain ⟨⟨rest, found⟩, keeps⟩ := lock.field writes front order
    obtain ⟨reader', taken, reads⟩ := Reader.read8_of_rest lock.reading lock.read found
    exact ⟨reader', by simp only [Reader.perform, taken]; rfl, keeps reader' reads⟩
  | unsigned16 =>
    obtain ⟨⟨rest, found⟩, keeps⟩ := lock.field writes front order
    obtain ⟨reader', taken, reads⟩ := Reader.read16_of_rest lock.reading lock.read lock.order found
    exact ⟨reader', by simp only [Reader.perform, taken]; rfl, keeps reader' reads⟩
  | unsigned32 =>
    obtain ⟨⟨rest, found⟩, keeps⟩ := lock.field writes front order
    obtain ⟨reader', taken, reads⟩ := Reader.read32_of_rest lock.reading lock.read lock.order found
    exact ⟨reader', by simp only [Reader.perform, taken]; rfl, keeps reader' reads⟩
  | signed8 =>
    obtain ⟨⟨rest, found⟩, keeps⟩ := lock.field writes front order
    obtain ⟨reader', taken, reads⟩ := Reader.read8_of_rest lock.reading lock.read found
    exact ⟨reader', by simp only [Reader.perform, Reader.readSigned8, taken]; rfl, keeps reader' reads⟩
  | signed16 =>
    obtain ⟨⟨rest, found⟩, keeps⟩ := lock.field writes front order
    obtain ⟨reader', taken, reads⟩ := Reader.read16_of_rest lock.reading lock.read lock.order found
    exact ⟨reader', by simp only [Reader.perform, Reader.readSigned16, taken]; rfl, keeps reader' reads⟩
  | signed32 =>
    obtain ⟨⟨rest, found⟩, keeps⟩ := lock.field writes front order
    obtain ⟨reader', taken, reads⟩ := Reader.read32_of_rest lock.reading lock.read lock.order found
    exact ⟨reader', by simp only [Reader.perform, Reader.readSigned32, taken]; rfl, keeps reader' reads⟩
  | bytes =>
    obtain ⟨⟨rest, found⟩, keeps⟩ := lock.field writes front order
    obtain ⟨reader', taken, reads⟩ := Reader.readBytes_of_rest lock.reading lock.read lock.order found
    exact ⟨reader', by simp only [Reader.perform, taken]; rfl, keeps reader' reads⟩
  | string room =>
    rw [← textField_eq_cutText] at room
    obtain ⟨⟨rest, found⟩, keeps⟩ := lock.field writes front order
    rw [List.append_assoc, List.singleton_append] at found
    obtain ⟨reader', taken, reads⟩ := Reader.readString_of_rest lock.reading lock.read
      (textField_solid _ _) found (by rwa [take_textField])
    rw [take_textField] at taken
    exact ⟨reader', by simp only [Reader.perform, taken, textField_eq_cutText]; rfl, keeps reader' reads⟩
  | @bit value =>
    have single : [value] = lowBits value.toUInt8 1 := by cases value <;> rfl
    simp only [WriteStep.item, Item.bits, single] at writes
    obtain ⟨reader', taken, lock'⟩ := lock.readBits le_rfl (by omega) writes front order
    refine ⟨reader', ?_, lock'⟩
    simp only [Reader.perform, Reader.readBit, taken]
    cases value <;> rfl
  | @bits value width least most =>
    obtain ⟨reader', taken, lock'⟩ := lock.readBits least most writes front order
    refine ⟨reader', ?_, lock'⟩
    have small : value.toNat % 2 ^ width < 2 ^ 8 := (Nat.mod_le _ _).trans_lt value.toNat_lt
    simp only [Reader.perform, taken, WriteStep.value]
    refine congrArg (fun number : Nat => (reader', some (Value.number number))) ?_
    rw [UInt8.toNat_ofNat', Nat.mod_eq_of_lt small]
  | flush =>
    obtain ⟨⟨rest, found⟩, keeps⟩ := lock.field writes front order
    have stays : reader.seek 0 = { reader.align with position := reader.position + 0 } :=
      Reader.seek_of_room lock.read lock.reading.inside
    exact ⟨_, congrArg (·, none) stays, keeps _ (Reader.reads_over lock.reading lock.read found)⟩
  | flip =>
    refine ⟨_, rfl, ⟨writes.valid, sound, ⟨lock.reading.inside, lock.reading.partly⟩, lock.read, lock.input,
      congrArg ByteOrder.flipped lock.order, lock.shared⟩⟩
  | order =>
    exact ⟨_, rfl, ⟨writes.valid, sound, ⟨lock.reading.inside, lock.reading.partly⟩, lock.read, lock.input,
      rfl, lock.shared⟩⟩

theorem Lockstep.run {script : List WriteStep} {reads : List ReadStep} (lock : Lockstep message writer reader)
    (mirrored : List.Forall₂ Mirrors script reads) (sound : (writer.run script).fault = none)
    (front : (writer.run script).bits <+: bitString message) :
    ∃ last, reader.run reads = (last, script.map WriteStep.value) ∧
      Lockstep message (writer.run script) last := by
  induction mirrored generalizing writer reader with
  | nil => exact ⟨reader, rfl, lock⟩
  | @cons write read script reads mirror mirrored ih =>
    have first : (writer.perform write).fault = none := by
      cases failed : (writer.perform write).fault with
      | none => rfl
      | some fault => exact absurd (sound.symm.trans (Writer.fault_run failed script)) nofun
    have valid := ((Writer.lays_perform lock.writing lock.written mirror.isField).writes first).valid
    have rest := (Writer.lays_run valid first (fields_of_mirrored mirrored)).writes sound
    have early : (writer.perform write).bits <+: bitString message :=
      (rest.bits ▸ List.prefix_append _ _).trans front
    obtain ⟨middle, value, lock'⟩ := lock.step mirror first early
    obtain ⟨last, values, lock''⟩ := ih lock' sound front
    exact ⟨last, by simp only [Reader.run, value, values, List.map_cons], lock''⟩

/-- A reader that is left with nothing but the bits that fill up the last byte has
come to the end of the message. -/
theorem Lockstep.position (lock : Lockstep message writer reader)
    (whole : bitString message = writer.bits ++ padding writer.bits.length) :
    reader.position = message.length := by
  have unread := congrArg List.length (List.append_cancel_left (lock.shared.symm.trans whole))
  have lengths := Reader.length_unread lock.reading
  rw [lock.input, unread, lock.staged] at lengths
  omega

/-- A message written without fault is read back: every read yields what was written,
and both cursors report the same length. -/
theorem run_mirrors {script : List WriteStep} {reads : List ReadStep}
    (mirrored : List.Forall₂ Mirrors script reads) (region : Bytes) (length : Nat)
    (finished : ((Writer.ofRegion region).run script).finish.2 = .ok length) :
    let message := ((Writer.ofRegion region).run script).finish.1.destination.contents.take length
    let reading := (Reader.ofInput message).run reads
    reading.2 = script.map WriteStep.value ∧ reading.1.finish.2 = .ok length := by
  intro message reading
  have sound := Writer.sound_of_finish finished
  have written := (Writer.lays_run (Writer.valid_ofRegion region) rfl (fields_of_mirrored mirrored)).writes sound
  obtain ⟨filled, position⟩ := Writer.writes_finish written.valid finished
  have encoded : message = ((Writer.ofRegion region).run script).flush.output := by
    rw [← (written.trans filled).take_contents, position]
    rfl
  have whole : bitString message =
      ((Writer.ofRegion region).run script).bits ++ padding ((Writer.ofRegion region).run script).bits.length := by
    rw [← filled.bits, Writer.bits_of_aligned (Writer.staged_flush sound), encoded]
  have front : ((Writer.ofRegion region).run script).bits <+: bitString message :=
    whole ▸ List.prefix_append _ _
  obtain ⟨last, read, lock⟩ := (Lockstep.start region message).run mirrored sound front
  have counted : message.length = length := by
    rw [encoded, filled.valid.counted, position]
  have results : reading = (last, script.map WriteStep.value) := read
  rw [results]
  refine ⟨rfl, ?_⟩
  simp only [Reader.finish, Reader.outcome, Reader.align, lock.read, lock.position whole, counted]

/-- Fields of every kind, with bits left over before most of them. -/
theorem run_mirrors_mixed :
    let script : List WriteStep :=
      [.bits 0x2D 5, .unsigned16 0xABCD, .flip, .bytes [1, 2, 3], .bit true, .flush, .bytes [],
        .string [104, 105, 0, 33] 9, .bits 0xFF 7, .bits 0x5A 4, .signed32 (-42), .order .little,
        .string [111, 110, 101] 2, .signed8 (-1), .bit false]
    let reads : List ReadStep :=
      [.bits 5, .unsigned16, .flip, .bytes 3, .bit, .seek 0, .bytes 0, .string 3 9, .bits 7, .bits 4,
        .signed32, .order .little, .string 8 2, .signed8, .bit]
    let region : Bytes := List.replicate 24 0xEE
    let last := (Writer.ofRegion region).run script
    let message := last.finish.1.destination.contents.take 21
    let reading := (Reader.ofInput message).run reads
    List.Forall₂ Mirrors script reads ∧ last.finish.2 = .ok 21 ∧
      reading.2 = script.map WriteStep.value ∧ reading.1.finish.2 = .ok 21 := by
  intro script reads region last message reading
  have mirrored : List.Forall₂ Mirrors script reads :=
    .cons (.bits (by decide) (by decide)) <| .cons .unsigned16 <| .cons .flip <| .cons .bytes <|
    .cons .bit <| .cons .flush <| .cons .bytes <| .cons (.string (by decide)) <|
    .cons (.bits (by decide) (by decide)) <| .cons (.bits (by decide) (by decide)) <|
    .cons .signed32 <| .cons .order <| .cons (.string (by decide)) <| .cons .signed8 <|
    .cons .bit .nil
  have finished : last.finish.2 = .ok 21 := by decide +kernel
  exact ⟨mirrored, finished, run_mirrors mirrored region 21 finished⟩

end Hopline.Codec
