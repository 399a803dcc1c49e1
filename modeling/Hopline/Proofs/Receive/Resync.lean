import Hopline.Proofs.Receive.Silence

/-! Getting back into step after noise. A window that looks at its start only finds a frame when
the frame is all that it holds. Once it is full that takes a frame of full size, and shorter frames
slide through it for ever. -/

namespace Hopline

/-- A frame that fills a window by itself. -/
def Frame.IsFull (frame : Frame) : Prop := frame.payload.length = maxPayload

theorem Frame.isFull_iff {frame : Frame} : frame.IsFull ↔ frame.wireSize = maxFrame := by
  unfold IsFull wireSize maxFrame
  omega

namespace Window

variable {window : Window} {heard : Bytes} {frame : Frame}

theorem isFull_of_recent (full : maxFrame ≤ heard.length) (whole : recent heard = frame.wire .checksum) :
    frame.IsFull := by
  have length := length_recent heard
  rw [whole, frame.length_wire, Nat.min_eq_right full] at length
  exact Frame.isFull_iff.mpr length

/-- A frame of full size is seen whatever was heard before it. -/
theorem sight?_of_isFull (heard : Bytes) (isFull : frame.IsFull) :
    SyncPolicy.headOnly.sight? .checksum (heard ++ frame.wire .checksum) = some frame := by
  apply SyncPolicy.sight?_headOnly.mpr
  apply recent_append_of_full
  rw [frame.length_wire]
  exact Frame.isFull_iff.mp isFull

theorem feedFrom_of_isFull (attends : window.Attends .checksum .headOnly heard) (isFull : frame.IsFull) {front : Bytes}
    (silent : SyncPolicy.headOnly.Silent .checksum heard (front ++ (frame.wire .checksum).dropLast))
    (index : Nat) (back : List Frame) :
    (window.feedFrom index (front ++ Frame.wires .checksum (frame :: back))).frames =
      Frame.completions (index + front.length) (frame :: back) := by
  obtain ⟨body, last, split, length⟩ := frame.exists_last .checksum
  rw [split, List.dropLast_concat] at silent
  have found := sight?_of_isFull (heard ++ front) isFull
  rw [split, List.append_assoc, ← List.append_assoc front] at found
  obtain ⟨later, afresh, frames⟩ := feedFrom_first attends silent found index (Frame.wires .checksum back)
  have stream :
      front ++ Frame.wires .checksum (frame :: back) = front ++ body ++ last :: Frame.wires .checksum back := by
    rw [Frame.wires_cons, split, List.append_assoc, List.append_assoc]
    rfl
  have place : index + (front ++ body).length = index + front.length + frame.wireSize - 1 := by
    rw [List.length_append]
    omega
  have next : index + front.length + frame.wireSize - 1 + 1 = index + front.length + frame.wireSize := by omega
  rw [stream, frames, place, next, feedFrom_whole afresh fun other _ => other.unbroken_headOnly]
  rfl

/-- The noise decides what the window holds, and the frames behind it decide alone whether it gets
back into step: nothing is handed out as long as the bytes held are not a frame, which a full window
holds only if the frame is of full size. Such a frame ends the silence, and if it is the first to do
so it comes out with everything after it. -/
theorem resync_exact (noise : Bytes) (frames : List Frame) :
    let held := ((empty .checksum .headOnly).feed noise).window
    let stream := Frame.wires .checksum frames
    let reception := held.feed stream
    (∀ frame : Frame, frame.encode .checksum = .ok (frame.wire .checksum)) ∧
    (reception.frames = [] ↔ ∀ part, part <+: stream → part ≠ [] →
      ∀ frame : Frame, recent (held.bytes ++ part) ≠ frame.wire .checksum) ∧
    (∀ part (frame : Frame), maxFrame ≤ (held.bytes ++ part).length →
      recent (held.bytes ++ part) = frame.wire .checksum → frame.IsFull) ∧
    ∀ front full back, frames = front ++ full :: back → full.IsFull →
      let before := held.feed (Frame.wires .checksum front ++ (full.wire .checksum).dropLast)
      reception.frames ≠ [] ∧
        (before.frames = [] →
          reception.frames = Frame.completions (Frame.wires .checksum front).length (full :: back)) := by
  intro held stream reception
  obtain ⟨since, attends⟩ := exists_attends (attends_empty .checksum .headOnly) 0 noise
  have attends : held.Attends .checksum .headOnly held.bytes := attends.held
  refine ⟨Frame.encode_checksum, ?_, fun part frame full whole => isFull_of_recent full whole, ?_⟩
  · refine (feedFrom_eq_nil attends 0).trans ?_
    simp only [SyncPolicy.Silent, SyncPolicy.sight?_headOnly_eq_none]
  · rintro front full back rfl isFull before
    have stream_eq : stream = Frame.wires .checksum front ++ Frame.wires .checksum (full :: back) :=
      Frame.wires_append _ _ _
    constructor
    · intro nothing
      have silent := (feedFrom_eq_nil attends 0).mp nothing
      have inside : Frame.wires .checksum front ++ full.wire .checksum <+: stream := by
        refine ⟨Frame.wires .checksum back, ?_⟩
        rw [stream_eq, Frame.wires_cons, List.append_assoc]
      have some : Frame.wires .checksum front ++ full.wire .checksum ≠ [] :=
        List.append_ne_nil_of_right_ne_nil _ (full.wire_ne_nil .checksum)
      have unseen := silent _ inside some
      rw [← List.append_assoc, sight?_of_isFull _ isFull] at unseen
      cases unseen
    · intro quiet
      have silent := (feedFrom_eq_nil attends 0).mp quiet
      have answers := feedFrom_of_isFull attends isFull silent 0 back
      rw [← stream_eq, Nat.zero_add] at answers
      exact answers

/-- Three bytes of noise and more than three windows full of short frames, none of which comes out. -/
theorem short_frames_out_of_step :
    let frame : Frame :=
      { destination := 0x10, source := 0x20, flags := .writeRequest, ttl := 2, payload := [0x6C, 0x6F, 0x73, 0x74]
        payload_le := by decide }
    let stream := Frame.wires .checksum (List.replicate 18 frame)
    3 * maxFrame ≤ stream.length ∧ ((empty .checksum .headOnly).feed ([0, 0, 0] ++ stream)).frames = [] := by
  decide +kernel

end Window

end Hopline
