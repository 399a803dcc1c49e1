import Hopline.Proofs.Frame.Decode
import Hopline.Proofs.Frame.Encode

/-! Encoding and decoding against each other. A signed frame is read back from any
source that begins with it, and under the checksum nothing else is read at all. -/

namespace Hopline

namespace Frame

theorem size_header (frame : Frame) : frame.header.size.toNat = frame.payload.length := by
  have fits : frame.payload.length ≤ 63 := frame.payload_le
  have size : frame.header.size = UInt8.ofNat frame.payload.length := rfl
  rw [size, UInt8.toNat_ofNat', Nat.mod_eq_of_lt (by omega)]

theorem header_ofParts {header : Header} {payload : Bytes} (sized : payload.length = header.size.toNat)
    (fits : payload.length ≤ maxPayload) : (ofParts header payload fits).header = header := by
  simp only [ofParts, Frame.header, Header.toMessage, sized, UInt8.ofNat_toNat]

theorem frameLength_header (frame : Frame) : frame.header.frameLength = frame.wireSize := by
  rw [Header.frameLength, size_header, wireSize]

theorem decode_body (hooks : FrameHooks) (frame : Frame) {trailer : Bytes} (ended : trailer.length = trailerSize)
    (accepts : hooks.validate (frame.body ++ trailer) = true) (suffix : Bytes) :
    decode hooks (frame.body ++ trailer ++ suffix) = .complete frame := by
  have decoded := decode_of_append hooks frame.size_header.symm frame.payload_le ended suffix
  rw [body] at accepts
  rw [accepts] at decoded
  exact decoded

theorem peek_body (frame : Frame) (suffix : Bytes) : Header.peek (frame.body ++ suffix) = some frame.header := by
  rw [body, List.append_assoc]
  exact Header.peek_bytes (frame.size_header.trans_le frame.payload_le) _

/-- No part of a frame passes for a frame. -/
theorem decode_take (hooks : FrameHooks) (frame : Frame) {trailer : Bytes} (ended : trailer.length = trailerSize)
    {count : Nat} (part : count < frame.wireSize) :
    decode hooks ((frame.body ++ trailer).take count) = .incomplete := by
  have size : ((frame.body ++ trailer).take count).length = count := by
    rw [List.length_take, List.length_append, length_body, ended]
    exact Nat.min_eq_left part.le
  by_cases short : count < headerSize
  · exact decode_of_short hooks (size.trans_lt short)
  · have front : (frame.body ++ trailer).take count =
        frame.header.bytes ++ (frame.payload ++ trailer).take (count - headerSize) := by
      rw [body, List.append_assoc, List.take_append, frame.header.length_bytes,
        List.take_of_length_le (frame.header.length_bytes.trans_le (Nat.le_of_not_lt short))]
    have peeked : Header.peek ((frame.body ++ trailer).take count) = some frame.header := by
      rw [front]
      exact Header.peek_bytes (frame.size_header.trans_le frame.payload_le) _
    apply decode_of_early hooks peeked
    rw [size, frameLength_header]
    exact part

theorem seals_blank (frame : Frame) : FrameHooks.checksum.Seals frame.blank := by
  apply FrameHooks.seals_checksum
  rw [frame.length_blank, wireSize]
  exact Nat.le_add_left _ _

/-- The frame round trip, for every pair of hooks that seals the frame. -/
theorem encode_decode (hooks : FrameHooks) (frame : Frame) (seals : hooks.Seals frame.blank) :
    ∃ wire : Bytes, wire.length = frame.wireSize ∧
      (∀ region : Bytes, frame.wireSize ≤ region.length →
        (frame.encodeInto hooks region).outcome = .ok frame.wireSize ∧
        (frame.encodeInto hooks region).destination.contents = wire ++ region.drop frame.wireSize) ∧
      (∀ region : Bytes, region.length < frame.wireSize →
        (frame.encodeInto hooks region).outcome = .error .bufferOverflow) ∧
      (∀ suffix, Header.peek (wire ++ suffix) = some frame.header) ∧
      (∀ suffix, Frame.decode hooks (wire ++ suffix) = .complete frame) ∧
      (∀ count < frame.wireSize, Frame.decode hooks (wire.take count) = .incomplete) ∧
      FrameHooks.checksum.Seals frame.blank := by
  obtain ⟨trailer, ended, sealed⟩ := seals.exists_trailer
  refine ⟨frame.wire hooks, frame.length_wire hooks, ?_, ?_, ?_, ?_, ?_, ?_⟩
  · intro region room
    exact Frame.encodeInto_of_room seals.signs room
  · intro region short
    exact Frame.encodeInto_of_short short
  · intro suffix
    rw [sealed, List.append_assoc]
    exact frame.peek_body _
  · intro suffix
    have accepts := seals.accepts
    rw [show (hooks.sign.run frame.blank).1 = frame.body ++ trailer from sealed] at accepts
    rw [sealed]
    exact frame.decode_body hooks ended accepts suffix
  · intro count part
    rw [sealed]
    exact frame.decode_take hooks ended part
  · exact frame.seals_blank

/-- Signatures other than the checksum seal frames as well: here the parity of the body. -/
theorem encode_decode_parity :
    let hooks : FrameHooks := ⟨Codec.Signer.parity, Codec.Validator.parity⟩
    let frame : Frame :=
      { destination := 0x1234, source := 0xBEEF, flags := .readRequest, ttl := 8, payload := [1, 0, 255]
        payload_le := by decide }
    hooks.Seals frame.blank ∧ ∃ wire : Bytes, wire.length = 11 ∧
      ∀ suffix, Frame.decode hooks (wire ++ suffix) = .complete frame := by
  intro hooks frame
  have seals : hooks.Seals frame.blank := ⟨by decide, by decide, by decide⟩
  obtain ⟨wire, length, _, _, _, decoded, _⟩ := encode_decode hooks frame seals
  exact ⟨seals, wire, length, decoded⟩

theorem encode_checksum (frame : Frame) : frame.encode .checksum = .ok (frame.wire .checksum) :=
  encode_of_signs frame.seals_blank.signs

theorem decode_wire (frame : Frame) (suffix : Bytes) :
    decode .checksum (frame.wire .checksum ++ suffix) = .complete frame := by
  have sized := Checksum.length_trailerFor frame.body
  rw [frame.wire_checksum]
  exact frame.decode_body .checksum sized ((Checksum.validator_append frame.body sized).mpr rfl) suffix

theorem decode_checksum_cases (source : Bytes) :
    (Cut source ∧ decode .checksum source = .incomplete) ∨
      (∃ (frame : Frame) (rest : Bytes), source = frame.wire .checksum ++ rest ∧ ¬Cut source) ∨
      (¬Cut source ∧ decode .checksum source =
        .refused (.codec .invalidData) (8 + (source.getD 4 0 &&& 0x3F).toNat)) := by
  by_cases cut : Cut source
  · exact .inl ⟨cut, decode_of_cut .checksum cut⟩
  · obtain ⟨header, payload, trailer, rest, found, size, sized, fits, ended⟩ := exists_parts cut
    have decoded := decode_of_append .checksum sized fits ended rest
    rw [← found] at decoded
    have judged : FrameHooks.checksum.validate (header.bytes ++ payload ++ trailer) = true ↔
        trailer = Checksum.trailerFor (header.bytes ++ payload) := Checksum.validator_append (header.bytes ++ payload) ended
    by_cases accepted : trailer = Checksum.trailerFor (header.bytes ++ payload)
    · refine .inr (.inl ⟨ofParts header payload fits, rest, ?_, cut⟩)
      rw [wire_checksum, body, header_ofParts sized fits, found]
      exact congrArg (fun trailer => header.bytes ++ payload ++ trailer ++ rest) accepted
    · rw [if_neg (mt judged.mp accepted)] at decoded
      refine .inr (.inr ⟨cut, decoded.trans ?_⟩)
      rw [← size, Header.frameLength, headerSize, trailerSize]
      congr 1
      omega

theorem decode_checksum_eq_complete {source : Bytes} {frame : Frame} :
    decode .checksum source = .complete frame ↔ frame.wire .checksum <+: source := by
  constructor
  · intro complete
    obtain ⟨_, other⟩ | ⟨same, rest, found, _⟩ | ⟨_, other⟩ := decode_checksum_cases source
    · rw [other] at complete
      cases complete
    · rw [found, decode_wire] at complete
      cases complete
      exact ⟨rest, found.symm⟩
    · rw [other] at complete
      cases complete
  · rintro ⟨rest, rfl⟩
    exact frame.decode_wire rest

theorem decode_checksum_eq_incomplete {source : Bytes} :
    decode .checksum source = .incomplete ↔ Cut source := by
  constructor
  · intro incomplete
    obtain ⟨cut, _⟩ | ⟨frame, rest, found, _⟩ | ⟨_, other⟩ := decode_checksum_cases source
    · exact cut
    · rw [found, decode_wire] at incomplete
      cases incomplete
    · rw [other] at incomplete
      cases incomplete
  · exact decode_of_cut .checksum

theorem take_of_complete {source : Bytes} {frame : Frame} (complete : decode .checksum source = .complete frame) :
    source.take frame.wireSize = frame.wire .checksum := by
  obtain ⟨rest, rfl⟩ := decode_checksum_eq_complete.mp complete
  rw [← frame.length_wire .checksum, List.take_left]

/-- Under the checksum, decoding accepts what encoding produces and nothing else. -/
theorem decode_checksum_exact (source : Bytes) :
    (∀ frame : Frame, decode .checksum source = .complete frame ↔
      ∃ wire, frame.encode .checksum = .ok wire ∧ wire <+: source) ∧
    (∀ frame : Frame, decode .checksum source = .complete frame →
      frame.encode .checksum = .ok (source.take frame.wireSize)) ∧
    (∀ (frame : Frame) (other : Bytes), decode .checksum source = .complete frame →
      decode .checksum other = .complete frame → source.take frame.wireSize = other.take frame.wireSize) ∧
    (decode .checksum source = .incomplete ↔
      source.length < 6 ∨ source.length < 8 + (source.getD 4 0 &&& 0x3F).toNat) ∧
    (decode .checksum source = .refused (.codec .invalidData) (8 + (source.getD 4 0 &&& 0x3F).toNat) ↔
      ¬(source.length < 6 ∨ source.length < 8 + (source.getD 4 0 &&& 0x3F).toNat) ∧
        ∀ (frame : Frame) (wire : Bytes), frame.encode .checksum = .ok wire → ¬wire <+: source) ∧
    (∀ header, Header.peek source = some header → header.size.toNat ≤ maxPayload) := by
  refine ⟨?_, ?_, ?_, decode_checksum_eq_incomplete, ?_, ?_⟩
  · intro frame
    simp only [decode_checksum_eq_complete, encode_checksum, Except.ok.injEq, exists_eq_left']
  · intro frame complete
    rw [encode_checksum, take_of_complete complete]
  · intro frame other complete complete'
    rw [take_of_complete complete, take_of_complete complete']
  · constructor
    · intro refused
      refine ⟨fun cut => ?_, ?_⟩
      · rw [decode_of_cut .checksum cut] at refused
        cases refused
      · intro frame wire encoded front
        rw [encode_checksum] at encoded
        cases encoded
        rw [decode_checksum_eq_complete.mpr front] at refused
        cases refused
    · rintro ⟨whole, foreign⟩
      obtain ⟨cut, _⟩ | ⟨frame, rest, found, _⟩ | ⟨_, refused⟩ := decode_checksum_cases source
      · exact absurd cut whole
      · exact absurd ⟨rest, found.symm⟩ (foreign frame _ frame.encode_checksum)
      · exact refused
  · intro header peeked
    by_cases short : source.length < headerSize
    · simp only [Header.peek, short, ↓reduceIte] at peeked
      cases peeked
    · obtain ⟨same, peeked', _, _, small⟩ := exists_peek (Nat.le_of_not_lt short)
      rw [peeked] at peeked'
      cases peeked'
      exact small

end Frame

end Hopline
