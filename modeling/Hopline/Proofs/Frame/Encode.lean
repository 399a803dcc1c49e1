import Hopline.Proofs.Codec.Script
import Hopline.Proofs.Frame.Checksum
import Hopline.Proofs.Frame.Header

/-! What encoding lays down. The fields and the empty trailer are one field script;
the signing hook then sees exactly that span, wherever the region ends. -/

namespace Hopline

open Codec

namespace Frame

/-- The fields of a frame as a script, its trailer still empty. -/
def script (frame : Frame) : List WriteStep :=
  [.order .little, .unsigned16 frame.destination, .unsigned16 frame.source,
    .bits frame.header.size sizeBits, .bits frame.flags.bits flagBits, .unsigned8 frame.ttl,
    .order .native, .bytes frame.payload, .unsigned16 0]

def body (frame : Frame) : Bytes := frame.header.bytes ++ frame.payload

/-- The span that the signing hook is shown. -/
def blank (frame : Frame) : Bytes := frame.body ++ List.replicate trailerSize 0

/-- The frame on the line. -/
def wire (frame : Frame) (hooks : FrameHooks) : Bytes := (hooks.sign.run frame.blank).1

theorem write_eq_run (frame : Frame) (hooks : FrameHooks) (writer : Writer) :
    frame.write hooks writer = ((writer.run frame.script).sign hooks.sign).flush := by
  simp only [write, Header.write, script, Writer.run, List.foldl_cons, List.foldl_nil, Writer.perform]
  rfl

theorem length_body (frame : Frame) : frame.body.length = headerSize + frame.payload.length := by
  rw [body, List.length_append, Header.length_bytes]

theorem length_blank (frame : Frame) : frame.blank.length = frame.wireSize := by
  rw [blank, List.length_append, length_body, List.length_replicate, wireSize]

theorem length_wire (frame : Frame) (hooks : FrameHooks) : (frame.wire hooks).length = frame.wireSize := by
  rw [wire, hooks.sign.length_run, length_blank]

theorem isField_of_mem_script (frame : Frame) : ∀ step ∈ frame.script, step.IsField := by
  have widths : (1 ≤ sizeBits ∧ sizeBits ≤ 8) ∧ 1 ≤ flagBits ∧ flagBits ≤ 8 := by decide
  simp [script, WriteStep.IsField, widths]

/-- The script lays out the blank frame, and nothing is left to fill up. -/
theorem layout_script (frame : Frame) : layout .native 0 frame.script = bitString frame.blank := by
  have native (field : Bytes) : ByteOrder.native.arrange field = field := rfl
  have little (field : Bytes) : ByteOrder.little.arrange field = field := rfl
  have packed : frame.header.bytes = littleEndian 2 frame.destination.toNat ++
      (littleEndian 2 frame.source.toNat ++ ([packedByte frame.header.size frame.flags] ++ [frame.ttl])) :=
    List.append_assoc _ _ _
  have empty : littleEndian 2 (0 : UInt16).toNat = List.replicate trailerSize 0 := rfl
  have sizes : sizeBits = 6 ∧ flagBits = 2 := ⟨rfl, rfl⟩
  rw [blank, body, packed]
  simp only [bitString_append, bitString_singleton, lowBits_packedByte, List.append_assoc]
  simp (disch := omega) only [script, layout, WriteStep.item, WriteStep.orderAfter, Item.bits, native, little,
    padding_of_aligned, List.nil_append, List.length_nil, length_bitString, length_littleEndian, length_lowBits,
    bitString_singleton, sizes, List.append_nil, empty, Nat.add_zero, Nat.reduceMul, Nat.reduceAdd]

variable {frame : Frame} {hooks : FrameHooks} {region : Bytes}

theorem lays_script (frame : Frame) (region : Bytes) :
    Writer.Lays (.ofRegion region) (bitString frame.blank) ((Writer.ofRegion region).run frame.script) := by
  have laid := Writer.lays_run (Writer.valid_ofRegion region) rfl frame.isField_of_mem_script
  have start : layout (Writer.ofRegion region).order (Writer.ofRegion region).bits.length frame.script =
      bitString frame.blank := frame.layout_script
  rwa [start] at laid

theorem writes_script (room : frame.wireSize ≤ region.length) :
    Writer.Writes (.ofRegion region) (bitString frame.blank) ((Writer.ofRegion region).run frame.script) := by
  cases frame.lays_script region with
  | fits written => exact written
  | overflows _ short =>
    have used : (Writer.ofRegion region).bits.length = 0 := rfl
    have capacity : (Writer.ofRegion region).capacity = region.length := rfl
    rw [used, capacity, length_bitString, length_blank] at short
    omega

theorem fault_script (short : region.length < frame.wireSize) :
    ((Writer.ofRegion region).run frame.script).fault = some .bufferOverflow := by
  cases frame.lays_script region with
  | overflows fault _ => exact fault
  | fits written =>
    obtain ⟨_, output⟩ := Writer.output_of_bits written.valid written.bits
    have counted := written.valid.counted
    have inside := written.valid.inside
    have capacity : (Writer.ofRegion region).capacity = region.length := rfl
    rw [output, length_blank] at counted
    rw [written.capacity, capacity] at inside
    omega

/-- Where there is room the cursor ends behind the signed frame. -/
theorem exists_encodeInto (signs : (hooks.sign.run frame.blank).2 = true) (room : frame.wireSize ≤ region.length) :
    ∃ writer : Writer, writer.fault = none ∧ writer.position = frame.wireSize ∧
      frame.encodeInto hooks region =
        { writer with destination := .region (frame.wire hooks ++ region.drop frame.wireSize) } := by
  have written := writes_script room
  obtain ⟨aligned, output⟩ := Writer.output_of_bits written.valid written.bits
  have position : ((Writer.ofRegion region).run frame.script).position = frame.wireSize := by
    rw [← written.valid.counted, output, length_blank]
  have ahead := written.ahead_ofRegion
  rw [← output] at signs
  have signed := Writer.sign_of_signs written.sound aligned written.region signs
  rw [output, ahead, position] at signed
  have encoded := (congrArg Writer.flush signed).trans (Writer.flush_of_aligned aligned)
  rw [encodeInto, write_eq_run, encoded]
  exact ⟨{ (Writer.ofRegion region).run frame.script with position := frame.wireSize }, written.sound, rfl, rfl⟩

/-- Where there is room the signed frame is laid down, and nothing past it is touched. -/
theorem encodeInto_of_room (signs : (hooks.sign.run frame.blank).2 = true) (room : frame.wireSize ≤ region.length) :
    (frame.encodeInto hooks region).outcome = .ok frame.wireSize ∧
      (frame.encodeInto hooks region).destination.contents =
        frame.wire hooks ++ region.drop frame.wireSize := by
  obtain ⟨writer, sound, position, encoded⟩ := exists_encodeInto signs room
  rw [encoded]
  exact ⟨Writer.outcome_eq_ok.mpr ⟨sound, position⟩, rfl⟩

/-- What has been committed is the signed frame. -/
theorem written_of_room (signs : (hooks.sign.run frame.blank).2 = true) (room : frame.wireSize ≤ region.length) :
    (frame.encodeInto hooks region).written = frame.wire hooks := by
  obtain ⟨writer, _, position, encoded⟩ := exists_encodeInto signs room
  rw [encoded]
  exact List.take_left' ((length_wire frame hooks).trans position.symm)

theorem encodeInto_of_refuses (refuses : (hooks.sign.run frame.blank).2 = false)
    (room : frame.wireSize ≤ region.length) : (frame.encodeInto hooks region).outcome = .error .noSign := by
  have written := writes_script room
  obtain ⟨aligned, output⟩ := Writer.output_of_bits written.valid written.bits
  rw [← output] at refuses
  have fault := Writer.fault_sign_of_refuses written.sound aligned written.region refuses
  rw [encodeInto, write_eq_run, Writer.outcome_eq_error]
  exact Writer.fault_flush fault

theorem encodeInto_of_short (short : region.length < frame.wireSize) :
    (frame.encodeInto hooks region).outcome = .error .bufferOverflow := by
  have fault := Writer.fault_perform (fault_script short) (.sign hooks.sign)
  rw [encodeInto, write_eq_run, Writer.outcome_eq_error]
  exact Writer.fault_flush fault

theorem encode_of_signs (signs : (hooks.sign.run frame.blank).2 = true) :
    frame.encode hooks = .ok (frame.wire hooks) := by
  have room : frame.wireSize ≤ (List.replicate maxFrame (0 : UInt8)).length := by
    rw [List.length_replicate]
    exact frame.wireSize_le
  obtain ⟨outcome, contents⟩ := encodeInto_of_room signs room
  simp only [encode, outcome, contents, Except.map]
  rw [← length_wire frame hooks, List.take_left]

end Frame

/-- A pair of hooks of which one signs a span within its trailer and the other accepts
what it has signed. -/
structure FrameHooks.Seals (hooks : FrameHooks) (span : Bytes) : Prop where
  signs : (hooks.sign.run span).2 = true
  keeps : (hooks.sign.run span).1.take (span.length - trailerSize) = span.take (span.length - trailerSize)
  accepts : hooks.validate (hooks.sign.run span).1 = true

theorem FrameHooks.Seals.exists_trailer {hooks : FrameHooks} {frame : Frame} (seals : hooks.Seals frame.blank) :
    ∃ trailer : Bytes, trailer.length = trailerSize ∧ frame.wire hooks = frame.body ++ trailer := by
  have lengths := frame.length_wire hooks
  have covered : frame.blank.length - trailerSize = frame.body.length := by
    rw [Frame.blank, List.length_append, List.length_replicate, Nat.add_sub_cancel]
  have keeps := seals.keeps
  rw [covered, Frame.blank, List.take_left] at keeps
  refine ⟨(frame.wire hooks).drop frame.body.length, ?_, ?_⟩
  · rw [List.length_drop, lengths, Frame.length_body, Frame.wireSize]
    omega
  · conv => lhs; rw [← List.take_append_drop frame.body.length (frame.wire hooks)]
    exact congrArg (· ++ _) keeps

theorem FrameHooks.seals_checksum {span : Bytes} (long : trailerSize ≤ span.length) :
    FrameHooks.checksum.Seals span := by
  let body := span.take (span.length - trailerSize)
  let trailer := span.drop (span.length - trailerSize)
  have sized : trailer.length = Checksum.size := by
    simp only [trailer, List.length_drop]
    exact Nat.sub_sub_self long
  have split : span = body ++ trailer := (List.take_append_drop _ _).symm
  have signed : FrameHooks.checksum.sign.run span = (body ++ Checksum.trailerFor body, true) := by
    rw [split]
    exact Checksum.sign_append body sized
  have length : body.length = span.length - trailerSize := by
    simp only [body, List.length_take]
    omega
  refine ⟨by rw [signed], ?_, ?_⟩
  · rw [signed]
    exact List.take_left' length
  · rw [signed]
    exact (Checksum.validator_append body (Checksum.length_trailerFor body)).mpr rfl

theorem Frame.wire_checksum (frame : Frame) :
    frame.wire .checksum = frame.body ++ Checksum.trailerFor frame.body := by
  have signed := Checksum.sign_append frame.body (List.length_replicate (n := trailerSize) (a := 0))
  exact congrArg Prod.fst signed

end Hopline
