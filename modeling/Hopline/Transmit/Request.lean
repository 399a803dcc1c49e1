import Hopline.Transmit.Queue

/-! Requests to a transmit queue as data, and the answers to them. -/

namespace Hopline

inductive QueueRequest
  | enqueue (message : Message)
  | drain
  | release
  | abort
  | describe
deriving DecidableEq, Inhabited

inductive QueueReply
  /-- The frame is queued; true if the caller has become the drainer. -/
  | claimed (drainer : Bool)
  | refused (error : FrameError)
  | sent (count : Nat)
  | released (idle : Bool)
  | dropped (count : Nat)
  | described (record : String)
deriving DecidableEq, Inhabited

structure Served (σ : Type) where
  queue : TransmitQueue
  line : σ
  reply : QueueReply
  events : List Event

def TransmitQueue.serve {σ : Type} [Carrier σ] (queue : TransmitQueue) (line : σ) :
    QueueRequest → Served σ
  | .enqueue message =>
    match Frame.ofMessage message with
    | .error error => { queue, line, reply := .refused error, events := [] }
    | .ok frame =>
      let done := queue.enqueue frame
      let reply := match done.claimed with
        | .ok drainer => .claimed drainer
        | .error error => .refused error
      { queue := done.queue, line, reply, events := done.events }
  | .drain =>
    let done := queue.drain line
    let reply := match done.sent with
      | .ok count => .sent count
      | .error error => .refused error
    { queue := done.queue, line := done.line, reply, events := done.events }
  | .release =>
    let (queue, idle) := queue.release
    { queue, line, reply := .released idle, events := [] }
  | .abort =>
    let (queue, count) := queue.abort
    { queue, line, reply := .dropped count, events := [] }
  | .describe => { queue, line, reply := .described queue.describe, events := [] }

end Hopline
