import Hopline.Proofs.Codec.RoundTrip
import Hopline.Proofs.Codec.WriterSafety

/-! How much of a text a string field takes and gives back. The text ends at its first zero byte and at
its limit, the field with the last byte of room, and what is read of it at the limit and the destination
of the read. An overflow is reported exactly where room, and no limit, has cut the text. -/

namespace Hopline.Codec

namespace Writer

variable {writer : Writer}

/-- A cursor that has room behind its pending bits has committed them. -/
theorem fault_align_of_room (sound : writer.fault = none) (room : 0 < writer.align.remaining) :
    writer.align.fault = none := by
  unfold align at room ⊢
  split
  next => exact sound
  next waiting =>
    rw [if_neg waiting] at room
    dsimp only at room ⊢
    split
    next full =>
      rw [if_pos full] at room
      exact absurd full (Nat.ne_of_gt room)
    next => exact sound

theorem writeString_of_full (sound : writer.fault = none) (full : writer.align.remaining = 0) (text : Bytes)
    (limit : Nat) : writer.writeString text limit = { writer.align with fault := some .bufferOverflow } := by
  obtain ⟨-, committed | lost⟩ := commits_align sound
  · simp only [writeString, aligned, sound, committed, full, fail, Option.isSome_none, Bool.false_eq_true, ↓reduceIte,
      Option.none_or]
  · simp only [writeString, aligned, sound, lost, Option.isSome_none, Option.isSome_some, Bool.false_eq_true,
      ↓reduceIte]
    rw [← lost]

/-- With any room at all the field is ended, by the byte behind what fits of the text. -/
theorem writeString_of_room (sound : writer.fault = none) (room : 0 < writer.align.remaining) (text : Bytes)
    (limit : Nat) :
    let wanted := cutText text limit
    let kept := min wanted.length (writer.align.remaining - 1)
    writer.writeString text limit =
      { writer.align.store (wanted.take kept ++ [0]) with
        fault := if kept < wanted.length then some .bufferOverflow else none } := by
  intro wanted kept
  have ready := fault_align_of_room sound room
  have front : wanted.take (writer.align.remaining - 1) = wanted.take kept := by
    rw [List.take_eq_take_min, Nat.min_comm]
  have length : (wanted.take kept).length = kept := List.length_take_of_le (Nat.min_le_left _ _)
  have stored : (writer.align.store (wanted.take kept ++ [0])).fault = none := ready
  have some : writer.align.remaining ≠ 0 := Nat.ne_of_gt room
  simp only [writeString, aligned, sound, ready, Option.isSome_none, Bool.false_eq_true, ↓reduceIte, some,
    textField_eq_cutText, show cutText text limit = wanted from rfl, front, length, fail, stored, Option.none_or]
  split
  next => rfl
  next => rw [← stored]

theorem contents_store (valid : writer.Valid) {field : Bytes} (room : field.length ≤ writer.remaining) :
    (writer.store field).destination.contents =
      writer.destination.contents.take writer.position ++ field ++
        writer.destination.contents.drop (writer.position + field.length) := by
  have front : writer.destination.contents.take writer.position = writer.output := by
    rw [contents_eq, List.take_left' valid.counted]
  have back : writer.destination.contents.drop (writer.position + field.length) = writer.ahead.drop field.length := by
    rw [contents_eq, ← valid.counted, ← List.drop_drop, List.drop_left]
  obtain ⟨-, output⟩ := placed_store valid.toPlaced room
  rw [contents_eq, output, ahead_store valid.toPlaced, front, back]

end Writer

/-- What is read of a field that holds `text`: no more than the limit and the destination take, while the
cursor passes the whole field. -/
theorem Reader.readString_of_stored {reader : Reader} (sound : reader.fault = none) {text rest : Bytes}
    (solid : ∀ byte ∈ text, byte ≠ 0) (found : reader.rest = text ++ [0] ++ rest) {size : Nat} (sized : 0 < size)
    (limit : Nat) :
    let wanted := if limit = 0 then text.length else min text.length limit
    let copied := min wanted (size - 1)
    reader.readString size limit =
      ({ reader.align with
          position := reader.position + text.length + 1
          fault := if copied < wanted then some .bufferOverflow else none },
        some (text.take copied ++ [0])) := by
  intro wanted copied
  have some : wanted ≤ text.length := limited_le text.length limit
  have front : (text.take wanted).take (size - 1) = text.take copied := by
    rw [List.take_take, Nat.min_comm]
  have length : (text.take wanted).length = wanted := List.length_take_of_le some
  have shorter : (text.take copied).length = copied :=
    List.length_take_of_le ((Nat.min_le_left _ _).trans some)
  rw [List.append_assoc, List.singleton_append] at found
  rw [readString_of_found sound solid found sized]
  simp only [show limited text.length limit = wanted from rfl, front, length, shorter, fail, align, sound,
    Option.none_or]
  split <;> rfl

theorem Value.overwrite_bytes (out span : Bytes) :
    (Value.bytes out).overwrite (some (.bytes span)) = .bytes (span ++ out.drop span.length) := rfl

/-- A string field holds as much of its text as there is room for in front of its end, and a read of the
field gives as much of that as its limit and its destination allow. -/
theorem string_truncation (writer : Writer) (valid : writer.Valid) (sound : writer.fault = none) (text : Bytes)
    (limit : Nat) :
    let ready := writer.align
    let room := ready.remaining
    let after := writer.writeString text limit
    let wanted := cutText text limit
    (room = 0 → after = { ready with fault := some .bufferOverflow }) ∧
    (0 < room →
      let kept := min wanted.length (room - 1)
      let stored := wanted.take kept ++ [0]
      let beyond := ready.destination.contents.drop (ready.position + kept + 1)
      after.destination.contents = ready.destination.contents.take ready.position ++ stored ++ beyond ∧
      after.destination.contents.drop ready.position = stored ++ beyond ∧
      after.position = ready.position + kept + 1 ∧
      after.fault = (if kept < wanted.length then some .bufferOverflow else none) ∧
      ∀ (reader : Reader) (rest out : Bytes) (most : Nat),
        reader.fault = none → reader.rest = stored ++ rest → out ≠ [] →
        let read := reader.readString out.length most
        let chosen := if most = 0 then kept else min kept most
        let copied := min chosen (out.length - 1)
        (Value.bytes out).overwrite (read.2.map .bytes) = .bytes (wanted.take copied ++ [0] ++ out.drop (copied + 1)) ∧
        read.1.position = reader.position + kept + 1 ∧
        read.1.fault = (if copied < chosen then some .bufferOverflow else none)) := by
  intro ready room after wanted
  refine ⟨fun full => writer.writeString_of_full sound full text limit, ?_⟩
  intro some kept stored beyond
  have written : after = _ := Writer.writeString_of_room sound some text limit
  have aligned : ready.Valid := (Writer.keeps_align valid.toPlaced valid.clean).valid
  have length : (wanted.take kept).length = kept := List.length_take_of_le (Nat.min_le_left _ _)
  have size : stored.length = kept + 1 := by rw [List.length_append, length, List.length_singleton]
  have enough : stored.length ≤ ready.remaining := by
    have least : kept ≤ room - 1 := Nat.min_le_right _ _
    omega
  have contents : after.destination.contents = ready.destination.contents.take ready.position ++ stored ++ beyond := by
    have contents := Writer.contents_store aligned enough
    rw [size, ← Nat.add_assoc] at contents
    rw [written]
    exact contents
  have front : (ready.destination.contents.take ready.position).length = ready.position := by
    rw [Writer.contents_eq, List.take_left' aligned.counted]
    exact aligned.counted
  refine ⟨contents, ?_, ?_, ?_, ?_⟩
  · rw [contents, List.append_assoc, List.drop_left' front]
  · rw [written]
    exact congrArg (ready.position + ·) size
  · rw [written]
  · intro reader rest out most sound found some read chosen copied
    have solid : ∀ byte ∈ wanted.take kept, byte ≠ 0 := by
      intro byte member
      have inside : byte ∈ textField text limit := by
        rw [textField_eq_cutText]
        exact List.mem_of_mem_take member
      exact textField_solid text limit byte inside
    have result : read = _ := Reader.readString_of_stored sound solid found (List.length_pos_iff.mpr some) most
    have fewer : copied ≤ kept := by
      have chosen_le : chosen ≤ kept := by
        unfold chosen
        split <;> omega
      exact (Nat.min_le_left _ _).trans chosen_le
    have taken : (wanted.take kept).take copied = wanted.take copied := by
      rw [List.take_take, Nat.min_eq_left fewer]
    have copy : (wanted.take copied ++ [0]).length = copied + 1 := by
      rw [List.length_append, List.length_singleton, List.length_take_of_le (fewer.trans (Nat.min_le_left _ _))]
    rw [length, show min (if most = 0 then kept else min kept most) (out.length - 1) = copied from rfl, taken] at result
    rw [result, Option.map_some, Value.overwrite_bytes, copy]
    exact ⟨rfl, rfl, rfl⟩

/-- One bit is pending, so there is room for three letters of four; and the destination takes two of those. -/
theorem string_truncation_twice :
    let writer := (Writer.ofRegion [9, 9, 9, 9, 9]).writeBits 1 1
    let after := writer.writeString [0x61, 0x62, 0x63, 0x64, 0, 0x65] 0
    let reader := (Reader.ofInput [1, 0x61, 0x62, 0x63, 0]).seek 1
    let read := reader.readString 3 0
    writer.Valid ∧ writer.fault = none ∧
      after.destination.contents = [1, 0x61, 0x62, 0x63, 0] ∧ after.fault = some .bufferOverflow ∧
      (Value.bytes [8, 8, 8]).overwrite (read.2.map .bytes) = .bytes [0x61, 0x62, 0] ∧
      read.1.position = 5 ∧ read.1.fault = some .bufferOverflow := by
  intro writer after reader read
  have valid : writer.Valid := (Writer.keeps_writeBits (Writer.valid_ofRegion _) 1 1).valid
  have sound : writer.fault = none := by decide
  obtain ⟨-, fits⟩ := string_truncation writer valid sound [0x61, 0x62, 0x63, 0x64, 0, 0x65] 0
  obtain ⟨contents, -, -, fault, reads⟩ := fits (by decide)
  obtain ⟨copied, position, cut⟩ := reads reader [] [8, 8, 8] 0 (by decide) (by decide) (by decide)
  refine ⟨valid, sound, contents.trans ?_, fault.trans ?_, copied.trans ?_, position.trans ?_, cut.trans ?_⟩
  all_goals decide

end Hopline.Codec
