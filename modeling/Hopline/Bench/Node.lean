import Hopline.Bus.Call
import Hopline.Line.Capture
import Hopline.Transmit.Request

/-! What a test bench puts around its buses: nodes that react to messages by script,
and interruptions that strike while the line takes a byte. -/

namespace Hopline.Bench

/-- A node of the bench, by order of creation. Its handler goes by the same number. -/
abbrev NodeId := HandlerId

inductive Reaction
  | record
  | reply (payload : Bytes) (ttl : UInt8) (flags : Flags)
  /-- Passes the message on with one hop less. -/
  | relay (onward : Address)
  | feed (bytes : Bytes)
  | detach (target : NodeId)
  | attach (address : Address)
deriving DecidableEq, Inhabited

structure Node where
  device : Nat
  address : Address
  reaction : Reaction
  limit : Nat
  acted : Nat
  attached : Bool
  /-- Invocations of its handler that have not returned. They keep the handler alive
  even after the node has been taken away. -/
  running : Nat
deriving DecidableEq, Inhabited

def Node.alive (node : Node) : Bool := node.attached || node.running != 0

def Node.describe (node : Node) : String :=
  Text.record "Node" [⟨"address", toString node.address.toNat⟩] true

inductive Interruption
  | signal (message : Message)
  | ingest (bytes : Bytes)
  | queue (request : QueueRequest)
deriving DecidableEq, Inhabited

inductive Reply
  | done
  | failed (error : BusError)
  | queue (reply : QueueReply)
  | detached (found : Bool)
  | attached (id : NodeId)
deriving DecidableEq, Inhabited

def Reply.ofResult : Except BusError Unit → Reply
  | .ok () => .done
  | .error error => .failed error

inductive Entry
  | heard (node : NodeId) (frame : Frame)
  | reacted (node : NodeId) (reply : Reply)
  | interrupted (call : Nat) (reply : Reply)
deriving DecidableEq, Inhabited

structure Device where
  bus : Bus
  wire : FaultyLine
  /-- What strikes during which call to the line, counted from zero. -/
  interruptions : List (Nat × Interruption)
  moved : Nat
deriving Inhabited

end Hopline.Bench
