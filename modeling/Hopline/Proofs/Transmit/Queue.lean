import Hopline.Proofs.Frame.Encode
import Hopline.Transmit.Queue

/-! What one operation does to a transmit queue. -/

namespace Hopline

theorem Codec.Writer.length_written_le (writer : Codec.Writer) : writer.written.length ≤ writer.position := by
  unfold written
  split
  · exact List.length_take_le _ _
  · exact Nat.zero_le _

namespace TransmitQueue

/-- Queueing a frame either leaves everything as it was or adds the whole frame, and
then the queue is being drained. -/
inductive EnqueuesAs (queue : TransmitQueue) (frame : Frame) : Enqueued → Prop
  | refused (error : FrameError) (events : List Event) :
    EnqueuesAs queue frame { queue, claimed := .error error, events }
  | accepted (wire : Bytes) (events : List Event)
    (written : wire = (frame.encodeInto queue.hooks (List.replicate maxFrame 0)).written)
    (room : wire.length ≤ queue.free) :
    EnqueuesAs queue frame
      { queue := { queue with bytes := queue.bytes ++ wire, draining := true }, claimed := .ok !queue.draining, events }

theorem enqueuesAs_enqueue (queue : TransmitQueue) (frame : Frame) :
    queue.EnqueuesAs frame (queue.enqueue frame) := by
  unfold enqueue
  dsimp only
  split
  next fault _ => exact .refused _ _
  next length outcome =>
    split
    next full => exact .refused _ _
    next room =>
      obtain ⟨_, position⟩ := Codec.Writer.outcome_eq_ok.mp outcome
      refine .accepted _ _ rfl ((Codec.Writer.length_written_le _).trans ?_)
      rw [position]
      exact Nat.le_of_not_lt room

variable {queue : TransmitQueue} {frame : Frame}

/-- Every frame fits into the buffer in which it is encoded. -/
theorem wireSize_le_buffer (frame : Frame) : frame.wireSize ≤ (List.replicate maxFrame (0 : UInt8)).length := by
  rw [List.length_replicate]
  exact frame.wireSize_le

/-- A frame that can be signed and fits is queued behind whatever waits. -/
theorem enqueue_of_room (signs : (queue.hooks.sign.run frame.blank).2 = true) (room : frame.wireSize ≤ queue.free) :
    queue.enqueue frame =
      { queue := { queue with bytes := queue.bytes ++ frame.wire queue.hooks, draining := true }
        claimed := .ok !queue.draining
        events := [.frameQueued frame.destination frame.wireSize !queue.draining] } := by
  have outcome := (Frame.encodeInto_of_room signs (wireSize_le_buffer frame)).1
  have written := Frame.written_of_room signs (wireSize_le_buffer frame)
  unfold enqueue
  dsimp only
  rw [outcome, written]
  exact if_neg (Nat.not_lt.mpr room)

theorem claimed_of_unsigned (refuses : (queue.hooks.sign.run frame.blank).2 = false) :
    (queue.enqueue frame).claimed = .error (.codec .noSign) := by
  have outcome := Frame.encodeInto_of_refuses refuses (wireSize_le_buffer frame)
  unfold enqueue
  dsimp only
  rw [outcome]

theorem claimed_of_full (signs : (queue.hooks.sign.run frame.blank).2 = true) (full : queue.free < frame.wireSize) :
    (queue.enqueue frame).claimed = .error (.queueFull frame.wireSize queue.free) := by
  have outcome := (Frame.encodeInto_of_room signs (wireSize_le_buffer frame)).1
  unfold enqueue
  dsimp only
  rw [outcome]
  dsimp only
  rw [if_pos full]

theorem queue_of_refused {error : FrameError} (refused : (queue.enqueue frame).claimed = .error error) :
    (queue.enqueue frame).queue = queue := by
  have enqueued := queue.enqueuesAs_enqueue frame
  generalize queue.enqueue frame = result at enqueued refused
  cases enqueued with
  | refused => rfl
  | accepted => cases refused

/-- A frame is accepted only as a whole, and only if it can be encoded. -/
theorem queue_of_accepted {claimed : Bool} (accepted : (queue.enqueue frame).claimed = .ok claimed) :
    (queue.enqueue frame).queue =
        { queue with bytes := queue.bytes ++ frame.wire queue.hooks, draining := true } ∧
      frame.encode queue.hooks = .ok (frame.wire queue.hooks) := by
  cases signs : (queue.hooks.sign.run frame.blank).2 with
  | false =>
    rw [claimed_of_unsigned signs] at accepted
    cases accepted
  | true =>
    by_cases room : frame.wireSize ≤ queue.free
    · rw [enqueue_of_room signs room]
      exact ⟨rfl, Frame.encode_of_signs signs⟩
    · rw [claimed_of_full signs (Nat.lt_of_not_le room)] at accepted
      cases accepted

end TransmitQueue

end Hopline
