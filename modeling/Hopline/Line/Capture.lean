import Hopline.Line.Carrier
import Hopline.Text.Record

/-! Lines that keep what they are given: one that takes everything, and one that
fails at chosen calls. -/

namespace Hopline

structure Capture where
  bytes : Bytes
  calls : Nat
deriving DecidableEq, Inhabited

namespace Capture

def empty : Capture := ⟨[], 0⟩

def record (capture : Capture) (byte : UInt8) : Capture :=
  ⟨capture.bytes ++ [byte], capture.calls + 1⟩

def isEmpty (capture : Capture) : Bool := capture.bytes.isEmpty

def take (capture : Capture) : Capture × Bytes := (empty, capture.bytes)

def describe (capture : Capture) : String :=
  Text.record "CaptureLine"
    [⟨"len", toString capture.bytes.length⟩, ⟨"calls", toString capture.calls⟩] false

end Capture

instance : Carrier Capture where
  transmit capture byte := (capture.record byte, .ok ())

structure FaultyLine where
  capture : Capture
  /-- Calls made so far, failed ones included. -/
  attempts : Nat
  /-- Which calls fail, counted from zero, and how. -/
  failures : List (Nat × LineError)
deriving DecidableEq, Inhabited

namespace FaultyLine

def ofFailures (failures : List (Nat × LineError)) : FaultyLine := ⟨Capture.empty, 0, failures⟩

def sound : FaultyLine := ofFailures []

def transmit (line : FaultyLine) (byte : UInt8) : FaultyLine × Except LineError Unit :=
  let next := { line with attempts := line.attempts + 1 }
  match line.failures.lookup line.attempts with
  | some error => (next, .error error)
  | none => ({ next with capture := line.capture.record byte }, .ok ())

def take (line : FaultyLine) : FaultyLine × Capture :=
  ({ line with capture := Capture.empty }, line.capture)

end FaultyLine

instance : Carrier FaultyLine where
  transmit := FaultyLine.transmit

end Hopline
