import Hopline.Event
import Hopline.Line.Carrier
import Hopline.Text.Record

/-! A line over a byte stream that may be interrupted, busy, closed or broken. An
interruption or a busy stream is tried again; each byte reaches the stream once or
not at all. -/

namespace Hopline

inductive WriteOutcome
  | taken
  /-- The stream took nothing and will take nothing more. -/
  | closed
  | failed (failure : Failure)
deriving DecidableEq, Inhabited

/-- A stream whose next answers are known; after those it takes everything. -/
structure ByteStream where
  writes : List WriteOutcome
  flushes : List (Option Failure)
  stored : Bytes
  writeCalls : Nat
  flushCalls : Nat
deriving DecidableEq, Inhabited

namespace ByteStream

def ofOutcomes (writes : List WriteOutcome) (flushes : List (Option Failure)) : ByteStream :=
  { writes, flushes, stored := [], writeCalls := 0, flushCalls := 0 }

/-- True of the failures after which a write is tried again. -/
def retriesWrite : FailureKind → Bool
  | .interrupted | .wouldBlock => true
  | _ => false

def retriesFlush : FailureKind → Bool
  | .interrupted => true
  | _ => false

def attempted (stream : ByteStream) (writes : List WriteOutcome) : ByteStream :=
  { stream with writes, writeCalls := stream.writeCalls + 1 }

def holding (stream : ByteStream) (byte : UInt8) : ByteStream :=
  { stream with stored := stream.stored ++ [byte] }

def transmitWith (stream : ByteStream) (byte : UInt8) :
    List WriteOutcome → ByteStream × Except LineError Unit
  | [] => ((stream.attempted []).holding byte, .ok ())
  | .taken :: rest => ((stream.attempted rest).holding byte, .ok ())
  | .closed :: rest => (stream.attempted rest, .error .disconnected)
  | .failed failure :: rest =>
    if retriesWrite failure.kind then (stream.attempted rest).transmitWith byte rest
    else (stream.attempted rest, .error (.io failure))

def transmit (stream : ByteStream) (byte : UInt8) : ByteStream × Except LineError Unit :=
  stream.transmitWith byte stream.writes

def writeEvents : Except LineError Unit → List Event
  | .error (.io failure) => [.lineWriteFailed failure]
  | _ => []

def flushWith (stream : ByteStream) : List (Option Failure) → ByteStream × Except LineError Unit
  | [] => ({ stream with flushes := [], flushCalls := stream.flushCalls + 1 }, .ok ())
  | none :: rest => ({ stream with flushes := rest, flushCalls := stream.flushCalls + 1 }, .ok ())
  | some failure :: rest =>
    let next := { stream with flushes := rest, flushCalls := stream.flushCalls + 1 }
    if retriesFlush failure.kind then next.flushWith rest
    else (next, .error (.io failure))

def flush (stream : ByteStream) : ByteStream × Except LineError Unit :=
  stream.flushWith stream.flushes

def describe (_ : ByteStream) : String := Text.record "WriteLine" [] true

end ByteStream

instance : Carrier ByteStream where
  transmit := ByteStream.transmit

end Hopline
