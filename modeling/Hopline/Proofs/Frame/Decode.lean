import Hopline.Proofs.Frame.Header

/-! What decoding makes of a byte string. A source that announces a frame it does not
hold in full is incomplete; behind a header with its payload and a trailer the hook
alone decides. -/

namespace Hopline

open Codec

namespace Frame

variable {header : Header} {payload trailer : Bytes}

/-- The frame whose header and payload have been read. -/
def ofParts (header : Header) (payload : Bytes) (fits : payload.length ≤ maxPayload) : Frame :=
  { header.toMessage payload with payload_le := fits }

/-- True where a source ends before the frame that it announces. -/
def Cut (source : Bytes) : Prop :=
  source.length < 6 ∨ source.length < 8 + (source.getD 4 0 &&& 0x3F).toNat

theorem decode_of_short (hooks : FrameHooks) {source : Bytes} (short : source.length < headerSize) :
    decode hooks source = .incomplete := by
  simp only [decode, Header.peek, short, ↓reduceIte]

theorem decode_of_early (hooks : FrameHooks) {source : Bytes} (peeked : Header.peek source = some header)
    (early : source.length < header.frameLength) : decode hooks source = .incomplete := by
  simp only [decode, peeked, early, ↓reduceIte]

theorem decode_of_cut (hooks : FrameHooks) {source : Bytes} (cut : Cut source) :
    decode hooks source = .incomplete := by
  by_cases short : source.length < headerSize
  · exact decode_of_short hooks short
  · obtain ⟨header, peeked, _, size, _⟩ := exists_peek (Nat.le_of_not_lt short)
    apply decode_of_early hooks peeked
    rcases cut with missing | missing
    · exact absurd missing short
    · rw [← size] at missing
      simp only [Header.frameLength, headerSize, trailerSize]
      omega

theorem exists_parts {source : Bytes} (whole : ¬Cut source) :
    ∃ (header : Header) (payload trailer rest : Bytes), source = header.bytes ++ payload ++ trailer ++ rest ∧
      header.size = source.getD 4 0 &&& 0x3F ∧ payload.length = header.size.toNat ∧
      payload.length ≤ maxPayload ∧ trailer.length = trailerSize := by
  obtain ⟨enough, long⟩ := not_or.mp whole
  obtain ⟨header, _, found, size, small⟩ := exists_peek (Nat.le_of_not_lt enough)
  rw [← size] at long
  have lengths := congrArg List.length found
  rw [List.length_append, header.length_bytes, List.length_drop, headerSize] at lengths
  let later := source.drop headerSize
  have left : later.length = source.length - 6 := List.length_drop
  have sized : (later.take header.size.toNat).length = header.size.toNat := by
    rw [List.length_take]
    omega
  refine ⟨header, later.take header.size.toNat, (later.drop header.size.toNat).take trailerSize,
    (later.drop header.size.toNat).drop trailerSize, ?_, size, sized, sized.trans_le small, ?_⟩
  · rw [List.append_assoc, List.take_append_drop, List.append_assoc, List.take_append_drop]
    exact found
  · rw [List.length_take, List.length_drop, trailerSize]
    omega

theorem readBytes_payload (header : Header) (payload trailer : Bytes) :
    ∃ after, (((Reader.ofInput (header.bytes ++ payload ++ trailer)).seek headerSize).setOrder .native).readBytes
        payload.length = (after, some payload) ∧
      after.fault = none ∧ after.input = header.bytes ++ payload ++ trailer ∧
      after.position + trailer.length = (header.bytes ++ payload ++ trailer).length := by
  let span := header.bytes ++ payload ++ trailer
  have long : span.length = headerSize + payload.length + trailer.length := by
    rw [List.length_append, List.length_append, header.length_bytes]
  let start : Reader := { Reader.ofInput span with position := 0 + headerSize }
  have inside : start.position ≤ start.input.length := show 0 + headerSize ≤ span.length by omega
  have sought : ((Reader.ofInput span).seek headerSize).setOrder .native = start :=
    congrArg (Reader.setOrder · .native) (Reader.seek_of_room rfl inside)
  have found : start.rest = ByteOrder.native.arrange payload ++ trailer := by
    have front : span.drop headerSize = payload ++ trailer := by
      rw [← header.length_bytes]
      exact (congrArg (List.drop _) (List.append_assoc _ _ _)).trans List.drop_left
    exact front
  have valid : start.Valid := ⟨inside, Nat.zero_lt_succ 7⟩
  obtain ⟨after, read, reads⟩ := Reader.readBytes_of_rest valid rfl rfl found
  obtain ⟨_, rest⟩ := reads.rest found
  refine ⟨after, sought ▸ read, reads.sound, reads.input, ?_⟩
  have left := congrArg List.length rest
  have inside := reads.valid.inside
  rw [Reader.length_rest, Reader.remaining, Reader.capacity] at left
  rw [show after.input = span from reads.input] at left inside
  show after.position + trailer.length = span.length
  omega

theorem decode_of_append (hooks : FrameHooks) (sized : payload.length = header.size.toNat)
    (fits : payload.length ≤ maxPayload) (ended : trailer.length = trailerSize) (rest : Bytes) :
    decode hooks (header.bytes ++ payload ++ trailer ++ rest) =
      if hooks.validate (header.bytes ++ payload ++ trailer) then .complete (ofParts header payload fits)
      else .refused (.codec .invalidData) header.frameLength := by
  have peeked : Header.peek (header.bytes ++ payload ++ trailer ++ rest) = some header := by
    simp only [List.append_assoc]
    exact Header.peek_bytes (sized ▸ fits) _
  have long : (header.bytes ++ payload ++ trailer).length = header.frameLength := by
    rw [List.length_append, List.length_append, header.length_bytes, sized, ended, Header.frameLength]
  have whole : ¬(header.bytes ++ payload ++ trailer ++ rest).length < header.frameLength := by
    rw [List.length_append, long]
    omega
  have span : (header.bytes ++ payload ++ trailer ++ rest).take header.frameLength =
      header.bytes ++ payload ++ trailer := List.take_left' long
  obtain ⟨after, read, sound, input, position⟩ := readBytes_payload header payload trailer
  have moved : after.seek trailerSize = { after.align with position := header.frameLength } := by
    rw [Reader.seek_of_room sound (by rw [input, ← ended]; exact position.le), ← ended, position, long]
  have consumed : (after.seek trailerSize).consumed = header.bytes ++ payload ++ trailer := by
    rw [moved, ← long]
    exact (congrArg (List.take _) input).trans List.take_length
  have settled : (after.seek trailerSize).fault = none := by
    rw [moved]
    exact sound
  simp only [decode, peeked, whole, ↓reduceIte, span, ← sized, read, Reader.validate_of_sound settled, consumed]
  rw [moved]
  cases hooks.validate (header.bytes ++ payload ++ trailer) with
  | false => rfl
  | true =>
    simp only [↓reduceIte, Reader.align, sound, Frame.ofMessage, Header.toMessage, fits, ↓reduceDIte]
    rfl

end Frame

end Hopline
