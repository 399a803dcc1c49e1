import Hopline.Proofs.Frame.Encode

/-! Frames on the line, one behind the other. -/

namespace Hopline

/-- Frames on the line, one behind the other. -/
def Frame.wires (hooks : FrameHooks) (frames : List Frame) : Bytes := frames.flatMap (·.wire hooks)

theorem Frame.wires_append (hooks : FrameHooks) (front back : List Frame) :
    wires hooks (front ++ back) = wires hooks front ++ wires hooks back := List.flatMap_append

theorem Frame.wires_cons (hooks : FrameHooks) (frame : Frame) (rest : List Frame) :
    wires hooks (frame :: rest) = frame.wire hooks ++ wires hooks rest := List.flatMap_cons

theorem Frame.wire_ne_nil (hooks : FrameHooks) (frame : Frame) : frame.wire hooks ≠ [] := by
  intro nothing
  have length := frame.length_wire hooks
  rw [nothing, wireSize, trailerSize] at length
  cases length

theorem Frame.exists_last (hooks : FrameHooks) (frame : Frame) :
    ∃ (front : Bytes) (last : UInt8), frame.wire hooks = front ++ [last] ∧ front.length + 1 = frame.wireSize := by
  have length := frame.length_wire hooks
  rcases List.eq_nil_or_concat (frame.wire hooks) with nothing | ⟨front, last, split⟩
  · exact absurd nothing (frame.wire_ne_nil hooks)
  · rw [List.concat_eq_append] at split
    rw [split, List.length_append, List.length_singleton] at length
    exact ⟨front, last, split, length⟩

/-- Another hop budget is another byte behind the size and flags, and another trailer. -/
theorem Frame.wire_withTtl (frame : Frame) (ttl : UInt8) :
    (frame.withTtl ttl).wire .checksum =
      ((frame.wire .checksum).take (frame.wireSize - trailerSize)).set 5 ttl ++
        Checksum.trailerFor (frame.withTtl ttl).body := by
  have covered : frame.wireSize - trailerSize = frame.body.length := by
    rw [frame.length_body, wireSize, Nat.add_sub_cancel]
  have replaced : (frame.withTtl ttl).body = frame.body.set 5 ttl := rfl
  rw [wire_checksum, wire_checksum, covered, List.take_left, replaced]

/-- A front of some frames on the line ends within one of them at most. -/
theorem Frame.exists_cut {hooks : FrameHooks} {frames : List Frame} {bytes : Bytes}
    (front : bytes <+: wires hooks frames) :
    ∃ (whole rest : List Frame) (part : Bytes), frames = whole ++ rest ∧ bytes = wires hooks whole ++ part ∧
      (part = [] ∨ ∃ (cut : Frame) (later : List Frame), rest = cut :: later ∧
        part <+: cut.wire hooks ∧ part.length < cut.wireSize) := by
  induction frames generalizing bytes with
  | nil => exact ⟨[], [], [], rfl, List.prefix_nil.mp front, .inl rfl⟩
  | cons frame frames ih =>
    have front : bytes <+: frame.wire hooks ++ wires hooks frames := front
    by_cases short : bytes.length < frame.wireSize
    · have part : bytes <+: frame.wire hooks := by
        apply List.prefix_of_prefix_length_le front (List.prefix_append _ _)
        rw [frame.length_wire]
        exact short.le
      exact ⟨[], frame :: frames, bytes, rfl, rfl, .inr ⟨frame, frames, rfl, part, short⟩⟩
    · have long : (frame.wire hooks).length ≤ bytes.length := by
        rw [frame.length_wire]
        exact Nat.le_of_not_lt short
      obtain ⟨behind, rfl⟩ := List.prefix_of_prefix_length_le (List.prefix_append _ _) front long
      obtain ⟨whole, rest, part, rfl, rfl, cut⟩ := ih ((List.prefix_append_right_inj _).mp front)
      refine ⟨frame :: whole, rest, part, rfl, ?_, cut⟩
      exact (List.append_assoc _ _ _).symm

end Hopline
