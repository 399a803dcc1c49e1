import Hopline.Command.Decode
import Hopline.Command.Encode
import Hopline.Proofs.Receive.CleanStream
import Hopline.Proofs.Text.HexDigits

/-! What one command prints the other reads. Encoding prints a frame's bytes as digits; decoding
these digits finds that frame and nothing besides, whatever its payload looks like. -/

namespace Hopline.Command

open Text

/-- The stream that is one frame: it comes out, and nothing is left over. -/
theorem StreamReport.ofBytes_wire (frame : Frame) :
    StreamReport.ofBytes .headOnly (frame.wire .checksum) =
      { frames := [⟨frame, none⟩]
        bytes := frame.wireSize
        stats := ⟨1, 0, 0⟩
        pending := 0 } := by
  have plain : (Window.empty .checksum .headOnly).Plain := ⟨rfl, rfl⟩
  obtain ⟨found, -, cleared, counted⟩ := Window.feedFrom_frame plain rfl frame 0
  simp only [StreamReport.ofBytes, frame.length_wire, Window.feed, found, counted, Window.length, cleared,
    List.map_cons, List.map_nil]
  rfl

theorem DecodePlan.execute_wire (frame : Frame) (environment : Environment) (format : OutputFormat) :
    (DecodePlan.mk (.hex (hexBytes (frame.wire .checksum))) .headOnly).execute environment format =
      .ok { code := .success
            output := (StreamReport.mk [⟨frame, none⟩] frame.wireSize ⟨1, 0, 0⟩ 0).print format } := by
  simp only [DecodePlan.execute, StreamSource.read, readHex_hexBytes]
  exact congrArg (fun report => Except.ok (DecodePlan.outcome report format)) (StreamReport.ofBytes_wire frame)

namespace EncodePlan

/-- The frame of a message that fits. -/
def frame (plan : EncodePlan) (payload : Bytes) (fits : payload.length ≤ maxPayload) : Frame :=
  { plan.message payload with payload_le := fits }

/-- What both commands tell of a frame. -/
def fields (plan : EncodePlan) (payload : Bytes) : List (String × JsonValue) :=
  [("destination", word16 plan.destination), ("source", word16 plan.source),
    ("write", .truth plan.flags.write), ("request", .truth plan.flags.request),
    ("ttl", .number plan.ttl.toNat), ("payload_size", .number payload.length),
    ("payload", .text (payloadPreview payload))]

variable {plan : EncodePlan} {environment : Environment} {payload : Bytes}

theorem execute_of_fits (given : plan.payload.read environment = .ok payload) (fits : payload.length ≤ maxPayload)
    (format : OutputFormat) :
    plan.execute environment format =
      .ok ⟨.success, print (plan.frame payload fits) ((plan.frame payload fits).wire .checksum) format⟩ := by
  have built : Frame.ofMessage (plan.message payload) = .ok (plan.frame payload fits) := dif_pos fits
  have encoded := (plan.frame payload fits).encode_checksum
  simp only [execute, given, encodeMessage, built, encoded, bind, Except.bind, Except.mapError, pure, Except.pure]

theorem execute_of_long (given : plan.payload.read environment = .ok payload) (long : maxPayload < payload.length)
    (format : OutputFormat) :
    plan.execute environment format =
      .error (CommandError.ofFrame "encode failed" (.payloadTooLarge payload.length maxPayload)) := by
  have refused : Frame.ofMessage (plan.message payload) = .error (.payloadTooLarge payload.length maxPayload) :=
    dif_neg (Nat.not_le_of_lt long)
  simp only [execute, given, encodeMessage, refused, bind, Except.bind, Except.mapError]

theorem print_pretty (frame : Frame) (wire : Bytes) :
    print frame wire .pretty = line ((FrameReport.mk frame none).toLine ++ " wire=" ++ hexBytes wire) := by
  have longer : ∀ front : String, front ++ (" wire=" ++ hexBytes wire) = front ++ "" ++ " wire=" ++ hexBytes wire := by
    intro front
    rw [String.append_empty, String.append_assoc]
  have shown : (FrameReport.mk frame (some wire)).toLine =
      (FrameReport.mk frame none).toLine ++ " wire=" ++ hexBytes wire := longer _
  simp only [print, printFrames, lines, List.map_cons, List.map_nil, List.flatMap_cons, List.flatMap_nil,
    List.append_nil, shown]

/-- The digits that encoding prints, given to decoding, tell of the same frame, and of a stream that
holds it and no more. Written digits read back as their bytes, and what is printed raw are the bytes
that the digits stand for. A payload that is too large leaves nothing to print. -/
theorem decode_inverts_encode (given : plan.payload.read environment = .ok payload) :
    (payload.length ≤ maxPayload → ∃ (frame : Frame) (wire : Bytes),
      frame.toMessage = plan.message payload ∧ wire.length = payload.length + 8 ∧
      plan.execute environment .json = .ok ⟨.success, line
        (JsonValue.array [.object (plan.fields payload ++ [("wire", .text (hexBytes wire))])]).render⟩ ∧
      plan.execute environment .pretty = .ok ⟨.success, line
        ((FrameReport.mk frame none).toLine ++ " wire=" ++ hexBytes wire)⟩ ∧
      plan.execute environment .raw = .ok ⟨.success, wire⟩ ∧
      ∀ other : Environment,
        let decoding := DecodePlan.mk (.hex (hexBytes wire)) .headOnly
        decoding.execute other .json = .ok ⟨.success, line
          (JsonValue.object [("frames", .array [.object (plan.fields payload)]),
            ("rx", .object [("bytes", .number (payload.length + 8)), ("frames", .number 1),
              ("rejected", .number 0), ("overflowed", .number 0), ("pending", .number 0)])]).render⟩ ∧
        decoding.execute other .raw = .ok ⟨.success, payload⟩ ∧
        ∀ format, decoding.execute other format =
          .ok ⟨.success, (StreamReport.mk [⟨frame, none⟩] (payload.length + 8) ⟨1, 0, 0⟩ 0).print format⟩) ∧
    (∀ bytes : Bytes, readHex (hexBytes bytes) = .ok bytes) ∧
    (maxPayload < payload.length → ∀ format, ∃ error : CommandError,
      plan.execute environment format = .error error ∧ error.code = .dataInvalid ∧
        error.message = "encode failed: " ++ payloadTooLargeMessage payload.length maxPayload) := by
  refine ⟨fun fits => ?_, readHex_hexBytes, fun long format => ⟨_, execute_of_long given long format, rfl, rfl⟩⟩
  let frame := plan.frame payload fits
  have size : frame.wireSize = payload.length + 8 := by
    show headerSize + payload.length + trailerSize = payload.length + 8
    unfold headerSize trailerSize
    omega
  have found := DecodePlan.execute_wire frame
  rw [size] at found
  refine ⟨frame, frame.wire .checksum, rfl, (frame.length_wire .checksum).trans size,
    execute_of_fits given fits .json, (execute_of_fits given fits .pretty).trans ?_,
    execute_of_fits given fits .raw, fun other => ⟨found other .json, (found other .raw).trans ?_, found other⟩⟩
  · rw [print_pretty]
  · exact congrArg (fun output => Except.ok (Outcome.mk .success output)) (List.append_nil payload)

/-- The digits of this frame begin with the digit of the marker. -/
theorem decode_inverts_encode_marked :
    let plan : EncodePlan := ⟨0x0F, 0x0E, Flags.none, 3, .hex "0xF0 0d"⟩
    let environment := Environment.supplying (.ok [])
    ∃ wire : Bytes, wire.length = 10 ∧ plan.execute environment .raw = .ok ⟨.success, wire⟩ ∧
      (DecodePlan.mk (.hex (hexBytes wire)) .headOnly).execute environment .raw = .ok ⟨.success, [0xF0, 0x0D]⟩ := by
  intro plan environment
  have given : plan.payload.read environment = .ok [0xF0, 0x0D] := rfl
  obtain ⟨frame, wire, -, length, -, -, raw, decoded⟩ := (decode_inverts_encode given).1 (by decide)
  exact ⟨wire, length, raw, (decoded environment).2.1⟩

end EncodePlan

end Hopline.Command
