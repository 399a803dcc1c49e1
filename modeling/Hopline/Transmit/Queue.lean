import Hopline.Event
import Hopline.Frame.Wire
import Hopline.Line.Carrier

/-! The transmit queue. Frames are queued whole, so they never interleave, and
bytes leave one at a time. Whoever queues into an idle queue becomes the drainer
and stays it until nothing is left or the queue is discarded. -/

namespace Hopline

/-- Bytes that the queue can hold: four frames of full size. -/
def queueCapacity : Nat := 4 * maxFrame

structure TransmitQueue where
  hooks : FrameHooks
  bytes : Bytes
  draining : Bool
deriving Inhabited

namespace TransmitQueue

def empty (hooks : FrameHooks) : TransmitQueue := { hooks, bytes := [], draining := false }

def standard : TransmitQueue := empty .checksum

def length (queue : TransmitQueue) : Nat := queue.bytes.length

def isEmpty (queue : TransmitQueue) : Bool := queue.bytes.isEmpty

def free (queue : TransmitQueue) : Nat := queueCapacity - queue.bytes.length

structure Enqueued where
  queue : TransmitQueue
  /-- True if the caller has become the drainer. -/
  claimed : Except FrameError Bool
  events : List Event

def enqueue (queue : TransmitQueue) (frame : Frame) : Enqueued :=
  let writer := frame.encodeInto queue.hooks (List.replicate maxFrame 0)
  match writer.outcome with
  | .error fault =>
    { queue, claimed := .error (.codec fault), events := [.encodeFailed fault writer.position] }
  | .ok length =>
    if queue.free < length then
      { queue, claimed := .error (.queueFull length queue.free), events := [] }
    else
      let claimed := !queue.draining
      { queue := { queue with bytes := queue.bytes ++ writer.written, draining := true }
        claimed := .ok claimed
        events := [.frameQueued frame.destination length claimed] }

def pop (queue : TransmitQueue) : TransmitQueue × Option UInt8 :=
  match queue.bytes with
  | [] => (queue, none)
  | byte :: rest => ({ queue with bytes := rest }, some byte)

/-- Gives up the drain if nothing is left to send; otherwise the caller has to go
on draining. -/
def release (queue : TransmitQueue) : TransmitQueue × Bool :=
  if queue.bytes.isEmpty then ({ queue with draining := false }, true) else (queue, false)

def abort (queue : TransmitQueue) : TransmitQueue × Nat :=
  ({ queue with bytes := [], draining := false }, queue.bytes.length)

structure Drained (σ : Type) where
  queue : TransmitQueue
  line : σ
  sent : Except FrameError Nat
  events : List Event

/-- Sends `bytes`, of which `sent` have gone before. The byte that the line does
not take is lost. -/
def drainFrom {σ : Type} [Carrier σ] (queue : TransmitQueue) (line : σ) (sent : Nat) :
    Bytes → Drained σ
  | [] => { queue := { queue with bytes := [] }, line, sent := .ok sent, events := [] }
  | byte :: rest =>
    match Carrier.transmit line byte with
    | (line, .ok ()) => drainFrom queue line (sent + 1) rest
    | (line, .error error) =>
      { queue := { queue with bytes := rest }, line, sent := .error (.line error),
        events := [.drainFailed error sent] }

def drain {σ : Type} [Carrier σ] (queue : TransmitQueue) (line : σ) : Drained σ :=
  queue.drainFrom line 0 queue.bytes

def describe (queue : TransmitQueue) : String :=
  Text.record "TxQueue"
    [⟨"len", toString queue.length⟩, ⟨"draining", Text.truth queue.draining⟩] true

end TransmitQueue

end Hopline
