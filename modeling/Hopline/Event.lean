import Hopline.Frame.Basic
import Hopline.Schedule.Error

/-! The journal of the library: one entry for each thing worth knowing that no
result reports. -/

namespace Hopline

inductive Severity
  | trace
  | debug
  | warning
deriving DecidableEq, Inhabited

inductive Event
  | encodeFailed (fault : Codec.Fault) (position : Nat)
  | decodeFailed (fault : Codec.Fault) (position : Nat)
  | frameReceived (destination source : Address) (ttl : UInt8) (size : Nat)
  | windowReset
  | frameQueued (destination : Address) (length : Nat) (claimed : Bool)
  /-- The line failed after `sent` bytes of a drain. -/
  | drainFailed (error : LineError) (sent : Nat)
  | lineWriteFailed (failure : Failure)
  | nodeRegistered (address : Address)
  | addressShadowed (address : Address)
  | deliveredLocally (source destination : Address)
  | delivered (source destination : Address) (ttl : UInt8)
  | zeroTtlDropped (source destination : Address)
  | hopBudgetExhausted (source destination : Address)
  | forwarded (source destination : Address) (ttl : UInt8)
  | transmitFailed (destination : Address) (error : FrameError)
  /-- A drain found the line taken and gave up the queue. -/
  | lineMissing (dropped : Nat)
  | queueDiscarded (dropped : Nat)
  | moduleAdded (name : String) (id : ModuleId)
  | dependencyRejected (error : ScheduleError)
  | moduleReady (name : String)
deriving DecidableEq, Inhabited

namespace Event

def severity : Event → Severity
  | .encodeFailed .. | .decodeFailed .. | .frameReceived .. | .frameQueued .. => .trace
  | .drainFailed .. | .lineWriteFailed .. | .addressShadowed .. | .transmitFailed ..
  | .lineMissing .. | .dependencyRejected .. => .warning
  | .windowReset | .nodeRegistered .. | .deliveredLocally .. | .delivered .. | .zeroTtlDropped ..
  | .hopBudgetExhausted .. | .forwarded .. | .queueDiscarded .. | .moduleAdded ..
  | .moduleReady .. => .debug

def message : Event → String
  | .encodeFailed .. => "encode failed"
  | .decodeFailed .. => "decode failed"
  | .frameReceived .. => "frame received"
  | .windowReset => "receive window reset"
  | .frameQueued .. => "frame queued"
  | .drainFailed .. => "line failed mid-drain"
  | .lineWriteFailed .. => "line write failed"
  | .nodeRegistered .. => "node registered"
  | .addressShadowed .. => "address registered twice; earliest registration wins"
  | .deliveredLocally .. => "delivered locally"
  | .delivered .. => "delivered"
  | .zeroTtlDropped .. => "dropped frame with zero ttl"
  | .hopBudgetExhausted .. => "hop budget exhausted"
  | .forwarded .. => "forwarded"
  | .transmitFailed .. => "frame transmit failed"
  | .lineMissing .. => "line missing, transmit queue discarded"
  | .queueDiscarded .. => "transmit queue discarded"
  | .moduleAdded .. => "module added"
  | .dependencyRejected .. => "dependency rejected"
  | .moduleReady .. => "module ready"

end Event

end Hopline
