import Hopline.Proofs.Frame.RoundTrip
import Hopline.Proofs.Frame.Wires
import Hopline.Receive.Window

/-! Frames on a clean line come out of the window one by one. While the window holds the front of
a frame no byte but the frame's last can complete anything, whatever the payload looks like. -/

namespace Hopline

/-- Looks for checksummed frames at the start of the window. -/
structure Window.Plain (window : Window) : Prop where
  hooks : window.hooks = .checksum
  policy : window.policy = .headOnly

/-- The index of the last byte of each frame on the line, from a given index on. -/
def Frame.completions (index : Nat) : List Frame → List (Nat × Frame)
  | [] => []
  | frame :: rest => (index + frame.wireSize - 1, frame) :: completions (index + frame.wireSize) rest

theorem Verdict.ofSpan_of_incomplete {hooks : FrameHooks} {span : Bytes}
    (incomplete : Frame.decode hooks span = .incomplete) : Verdict.ofSpan hooks span = .unfit := by
  unfold Verdict.ofSpan
  split
  next => rfl
  next =>
    split
    · rfl
    · rw [incomplete]

theorem Verdict.ofSpan_wire (frame : Frame) :
    Verdict.ofSpan .checksum (frame.wire .checksum) = .accepted frame := by
  have peeked : Header.peek (frame.wire .checksum) = some frame.header := by
    rw [frame.wire_checksum]
    exact frame.peek_body _
  have decoded := frame.decode_wire []
  rw [List.append_nil] at decoded
  have fits : frame.header.frameLength = (frame.wire .checksum).length := by
    rw [frame.frameLength_header, frame.length_wire]
  unfold Verdict.ofSpan
  simp only [peeked, fits, decoded, ne_eq, not_true_eq_false, ↓reduceIte]

theorem Frame.decode_front {frame : Frame} {front : Bytes} (inside : front <+: frame.wire .checksum)
    (short : front.length < frame.wireSize) : decode .checksum front = .incomplete := by
  rw [List.prefix_iff_eq_take.mp inside, frame.wire_checksum]
  exact frame.decode_take .checksum (Checksum.length_trailerFor frame.body) short

namespace Window

variable {window : Window} {frame : Frame} {byte : UInt8}

theorem push_of_front (inside : window.bytes ++ [byte] <+: frame.wire .checksum) :
    window.push byte = { window with bytes := window.bytes ++ [byte], phase := .accumulating } := by
  have room : window.bytes.length ≠ maxFrame := by
    have longest := frame.wireSize_le
    have length := inside.length_le
    rw [frame.length_wire, List.length_append, List.length_singleton] at length
    omega
  rw [push, if_neg room]

theorem ingest_inside (plain : window.Plain) (inside : window.bytes ++ [byte] <+: frame.wire .checksum)
    (short : (window.bytes ++ [byte]).length < frame.wireSize) :
    (window.ingest byte).frame = none ∧
      (window.ingest byte).window = { window with bytes := window.bytes ++ [byte], phase := .accumulating } := by
  have unfit := Verdict.ofSpan_of_incomplete (Frame.decode_front inside short)
  unfold ingest
  rw [push_of_front inside]
  simp only [plain.hooks, plain.policy, candidates, Search.run, unfit]
  exact ⟨trivial, congrArg (Window.mk _ _ _ _) (congrArg (ReceiveStats.mk _ · _) (UInt32.add_zero _))⟩

theorem ingest_last (plain : window.Plain) (whole : window.bytes ++ [byte] = frame.wire .checksum) :
    (window.ingest byte).frame = some frame ∧
      (window.ingest byte).window =
        { window with
          bytes := []
          phase := .idle
          stats := { window.stats with frames := window.stats.frames + 1 } } := by
  have accepted := Verdict.ofSpan_wire frame
  have inside : window.bytes ++ [byte] <+: frame.wire .checksum := whole ▸ List.prefix_rfl
  rw [← whole] at accepted
  unfold ingest
  rw [push_of_front inside]
  simp only [plain.hooks, plain.policy, candidates, Search.run, accepted]
  exact ⟨trivial, congrArg (Window.mk _ _ _ _) (congrArg (ReceiveStats.mk _ · _) (UInt32.add_zero _))⟩

theorem feedFrom_append (window : Window) (index : Nat) (front back : Bytes) :
    let first := window.feedFrom index front
    let later := first.window.feedFrom (index + front.length) back
    (window.feedFrom index (front ++ back)).frames = first.frames ++ later.frames ∧
      (window.feedFrom index (front ++ back)).window = later.window := by
  induction front generalizing window index with
  | nil => exact ⟨rfl, rfl⟩
  | cons byte rest ih =>
    obtain ⟨frames, final⟩ := ih (window.ingest byte).window (index + 1)
    have place : index + (byte :: rest).length = index + 1 + rest.length := by
      rw [List.length_cons]
      omega
    rw [List.cons_append, place]
    refine ⟨?_, final⟩
    simp only [feedFrom, List.append_assoc]
    rw [frames]

/-- A part of a frame is held, and nothing else happens. -/
theorem feedFrom_part (plain : window.Plain) {part : Bytes} (inside : window.bytes ++ part <+: frame.wire .checksum)
    (short : (window.bytes ++ part).length < frame.wireSize) (index : Nat) :
    let reception := window.feedFrom index part
    reception.frames = [] ∧ reception.window.Plain ∧ reception.window.bytes = window.bytes ++ part ∧
      reception.window.stats = window.stats := by
  induction part generalizing window index with
  | nil => exact ⟨rfl, plain, (List.append_nil _).symm, rfl⟩
  | cons byte rest ih =>
    rw [List.append_cons] at inside short ⊢
    have front := (List.prefix_append _ rest).trans inside
    have less : (window.bytes ++ [byte]).length < frame.wireSize :=
      Nat.lt_of_le_of_lt (List.prefix_append _ rest).length_le short
    obtain ⟨nothing, held⟩ := ingest_inside plain front less
    simp only [feedFrom, nothing, held, Option.map_none, Option.toList_none, List.nil_append]
    let next : Window := { window with bytes := window.bytes ++ [byte], phase := .accumulating }
    have still : next.Plain := ⟨plain.hooks, plain.policy⟩
    exact @ih next still inside short (index + 1)

/-- All of a frame but its last byte is held. -/
theorem exists_held (plain : window.Plain) (empty : window.bytes = []) (frame : Frame) (index : Nat) :
    ∃ (front : Bytes) (last : UInt8), frame.wire .checksum = front ++ [last] ∧ front.length + 1 = frame.wireSize ∧
      let reception := window.feedFrom index front
      reception.frames = [] ∧ reception.window.Plain ∧ reception.window.bytes ++ [last] = frame.wire .checksum ∧
        reception.window.stats = window.stats := by
  obtain ⟨front, last, split, length⟩ := frame.exists_last .checksum
  have inside : window.bytes ++ front <+: frame.wire .checksum := by
    rw [empty, split]
    exact List.prefix_append _ _
  have short : (window.bytes ++ front).length < frame.wireSize := by
    rw [empty, List.nil_append]
    omega
  obtain ⟨nothing, still, held, stats⟩ := feedFrom_part plain inside short index
  refine ⟨front, last, split, length, nothing, still, ?_, stats⟩
  rw [held, empty, split]
  rfl

/-- A whole frame comes out with its last byte, and the window is empty again. -/
theorem feedFrom_frame (plain : window.Plain) (empty : window.bytes = []) (frame : Frame) (index : Nat) :
    let reception := window.feedFrom index (frame.wire .checksum)
    reception.frames = [(index + frame.wireSize - 1, frame)] ∧ reception.window.Plain ∧
      reception.window.bytes = [] ∧
      reception.window.stats = { window.stats with frames := window.stats.frames + 1 } := by
  obtain ⟨front, last, split, length, nothing, still, whole, stats⟩ := exists_held plain empty frame index
  obtain ⟨frames, final⟩ := feedFrom_append window index front [last]
  obtain ⟨found, cleared⟩ := ingest_last still whole
  have place : index + frame.wireSize - 1 = index + front.length := by omega
  rw [nothing] at frames
  rw [split]
  intro reception
  have answer : reception.frames = [(index + frame.wireSize - 1, frame)] := by
    refine frames.trans ?_
    simp only [feedFrom, found, place, Option.map_some, Option.toList_some, List.nil_append, List.append_nil]
  have after : reception.window =
      { (window.feedFrom index front).window with
        bytes := []
        phase := .idle
        stats := { window.stats with frames := window.stats.frames + 1 } } := by
    refine final.trans ?_
    simp only [feedFrom, cleared, stats]
  rw [after]
  exact ⟨answer, ⟨still.hooks, still.policy⟩, rfl, rfl⟩

theorem feedFrom_wires (plain : window.Plain) (empty : window.bytes = []) (frames : List Frame) (index : Nat) :
    let reception := window.feedFrom index (Frame.wires .checksum frames)
    reception.frames = Frame.completions index frames ∧ reception.window.Plain ∧ reception.window.bytes = [] ∧
      reception.window.stats =
        { window.stats with frames := window.stats.frames + UInt32.ofNat frames.length } := by
  induction frames generalizing window index with
  | nil =>
    refine ⟨rfl, plain, empty, ?_⟩
    exact congrArg (ReceiveStats.mk · _ _) (UInt32.add_zero _).symm
  | cons frame rest ih =>
    obtain ⟨first, still, cleared, counted⟩ := feedFrom_frame plain empty frame index
    obtain ⟨frames, final⟩ := feedFrom_append window index (frame.wire .checksum) (Frame.wires .checksum rest)
    rw [frame.length_wire] at frames final
    obtain ⟨others, kept, held, stats⟩ := ih still cleared (index + frame.wireSize)
    intro reception
    have answer : reception.frames = Frame.completions index (frame :: rest) := by
      rw [show reception.frames = _ from frames, first, others]
      rfl
    have total : reception.window.stats =
        { window.stats with frames := window.stats.frames + UInt32.ofNat (frame :: rest).length } := by
      rw [show reception.window = _ from final, stats, counted, List.length_cons, Nat.add_comm, UInt32.ofNat_add,
        ← UInt32.add_assoc]
      rfl
    rw [show reception.window = _ from final] at total ⊢
    exact ⟨answer, kept, held, total⟩

/-- On a clean line every frame comes out, in order and with its last byte, and nothing else does.
Whatever has been counted so far, nothing is turned down, nothing falls out of the window, and what
has arrived of the next frame is held. -/
theorem feed_clean (phase : ReceivePhase) (stats : ReceiveStats) (frames : List Frame) (further : Frame)
    (count : Fin further.wireSize) :
    let window : Window := { hooks := .checksum, policy := .headOnly, bytes := [], phase, stats }
    let part := (further.wire .checksum).take count
    let reception := window.feed (Frame.wires .checksum frames ++ part)
    (∀ frame : Frame, frame.encode .checksum = .ok (frame.wire .checksum)) ∧
    reception.frames = Frame.completions 0 frames ∧
    reception.window.stats = { stats with frames := stats.frames + UInt32.ofNat frames.length } ∧
    reception.window.bytes = part ∧ reception.window.length = count := by
  intro window part reception
  obtain ⟨found, still, cleared, counted⟩ := feedFrom_wires (show window.Plain from ⟨rfl, rfl⟩) rfl frames 0
  obtain ⟨all, final⟩ := feedFrom_append window 0 (Frame.wires .checksum frames) part
  have length : part.length = count := by
    rw [List.length_take, further.length_wire]
    exact Nat.min_eq_left count.isLt.le
  have inside : (window.feedFrom 0 (Frame.wires .checksum frames)).window.bytes ++ part <+: further.wire .checksum := by
    rw [cleared]
    exact List.take_prefix _ _
  have short : ((window.feedFrom 0 (Frame.wires .checksum frames)).window.bytes ++ part).length < further.wireSize := by
    rw [cleared, List.nil_append, length]
    exact count.isLt
  obtain ⟨nothing, _, held, same⟩ := feedFrom_part still inside short (0 + (Frame.wires .checksum frames).length)
  rw [cleared, List.nil_append] at held
  rw [show reception.window = _ from final]
  refine ⟨Frame.encode_checksum, ?_, same.trans counted, held, (congrArg List.length held).trans length⟩
  rw [show reception.frames = _ from all, found, nothing, List.append_nil]

end Window

end Hopline
