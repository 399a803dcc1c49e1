import Hopline.Proofs.Receive.CleanStream

/-! Frames between two devices. The window of the second has heard a front of the first frame, and
the link holds all that follows. -/

namespace Hopline

structure Frame.Underway (held link : Bytes) (frames : List Frame) : Prop where
  bytes : held ++ link = wires .checksum frames
  front : held = [] ∨ ∃ (frame : Frame) (rest : List Frame), frames = frame :: rest ∧ held.length < frame.wireSize
  fresh : ∀ frame ∈ frames, frame.ttl ≠ 0

namespace Frame.Underway

variable {held link : Bytes} {frames more : List Frame}

theorem send (underway : Underway held link frames) (fresh : ∀ frame ∈ more, frame.ttl ≠ 0) :
    Underway held (link ++ wires .checksum more) (frames ++ more) := by
  refine ⟨?_, ?_, ?_⟩
  · rw [← List.append_assoc, underway.bytes, wires_append]
  · rcases underway.front with nothing | ⟨frame, rest, rfl, short⟩
    · exact .inl nothing
    · exact .inr ⟨frame, rest ++ more, rfl, short⟩
  · intro frame member
    rcases List.mem_append.mp member with old | new
    · exact underway.fresh frame old
    · exact fresh frame new

/-- Nothing is underway on an empty link. -/
theorem eq_nil (underway : Underway held [] frames) : frames = [] := by
  have bytes := underway.bytes
  rw [List.append_nil] at bytes
  cases frames with
  | nil => rfl
  | cons frame rest =>
    have long : frame.wireSize ≤ held.length := by
      rw [bytes, wires_cons, List.length_append, frame.length_wire]
      exact Nat.le_add_right _ _
    have some : 0 < frame.wireSize := Nat.le_add_left _ _
    rcases underway.front with nothing | ⟨first, others, same, short⟩
    · rw [nothing] at long
      exact absurd long (Nat.not_le.mpr some)
    · obtain ⟨rfl, -⟩ := List.cons.inj same
      exact absurd long (Nat.not_le.mpr short)

/-- A byte that is heard goes on with the first frame or completes it. -/
theorem hear {window : Window} {byte : UInt8} (plain : window.Plain)
    (underway : Underway window.bytes (byte :: link) frames) :
    let heard := window.ingest byte
    heard.window.Plain ∧
      (heard.frame = none ∧ Underway heard.window.bytes link frames ∨
        ∃ (frame : Frame) (rest : List Frame), frames = frame :: rest ∧ heard.frame = some frame ∧ frame.ttl ≠ 0 ∧
          Underway heard.window.bytes link rest) := by
  intro heard
  have bytes := underway.bytes
  cases frames with
  | nil =>
    exact absurd bytes (List.append_ne_nil_of_right_ne_nil _ (List.cons_ne_nil _ _))
  | cons frame rest =>
    have short : window.bytes.length < frame.wireSize := by
      rcases underway.front with nothing | ⟨first, others, same, short⟩
      · rw [nothing]
        exact Nat.le_add_left _ _
      · obtain ⟨rfl, -⟩ := List.cons.inj same
        exact short
    have wire := frame.length_wire .checksum
    have length : (window.bytes ++ [byte]).length = window.bytes.length + 1 := List.length_append
    rw [List.append_cons, wires_cons] at bytes
    have front : window.bytes ++ [byte] <+: frame.wire .checksum := by
      apply List.prefix_of_prefix_length_le (Exists.intro link bytes) (List.prefix_append _ _)
      omega
    -- the window agrees with the first frame so far, so only the length decides
    by_cases inside : (window.bytes ++ [byte]).length < frame.wireSize
    · obtain ⟨nothing, next⟩ := Window.ingest_inside plain front inside
      have next : heard.window = _ := next
      rw [next]
      exact ⟨⟨plain.hooks, plain.policy⟩, .inl ⟨nothing, bytes, .inr ⟨frame, rest, rfl, inside⟩, underway.fresh⟩⟩
    · have whole : window.bytes ++ [byte] = frame.wire .checksum := by
        apply front.eq_of_length
        omega
      obtain ⟨found, next⟩ := Window.ingest_last plain whole
      have next : heard.window = _ := next
      rw [whole] at bytes
      rw [next]
      have fresh := underway.fresh frame List.mem_cons_self
      refine ⟨⟨plain.hooks, plain.policy⟩, .inr ⟨frame, rest, rfl, found, fresh, ?_⟩⟩
      refine ⟨List.append_cancel_left bytes, .inl rfl, ?_⟩
      intro other member
      exact underway.fresh other (List.mem_cons_of_mem _ member)

end Frame.Underway

end Hopline
