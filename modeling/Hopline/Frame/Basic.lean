import Hopline.Bytes
import Hopline.Frame.Flags
import Hopline.Frame.Error

/-! Messages and frames. A message is what a sender asks for; a frame is a message
whose payload the size field can carry. -/

namespace Hopline

abbrev Address := UInt16

/-- Bytes before the payload: destination, source, size and flags, hop budget. -/
def headerSize : Nat := 6

def trailerSize : Nat := 2

def sizeBits : Nat := 6

def flagBits : Nat := 2

def maxPayload : Nat := 1 <<< sizeBits - 1

def maxFrame : Nat := headerSize + maxPayload + trailerSize

def defaultTtl : UInt8 := 8

structure Message where
  destination : Address
  source : Address
  flags : Flags
  ttl : UInt8
  payload : Bytes
deriving DecidableEq, Inhabited

/-- A message that fits on the line. -/
structure Frame extends Message where
  payload_le : payload.length ≤ maxPayload
deriving DecidableEq

instance : Inhabited Frame :=
  ⟨{ (default : Message) with payload := [], payload_le := Nat.zero_le _ }⟩

structure Header where
  destination : Address
  source : Address
  size : UInt8
  flags : Flags
  ttl : UInt8
deriving DecidableEq, Inhabited

def Header.frameLength (header : Header) : Nat := headerSize + header.size.toNat + trailerSize

namespace Frame

/-- The frame that carries a message, unless its payload is too large. -/
def ofMessage (message : Message) : Except FrameError Frame :=
  if fits : message.payload.length ≤ maxPayload then .ok { message with payload_le := fits }
  else .error (.payloadTooLarge message.payload.length maxPayload)

def wireSize (frame : Frame) : Nat := headerSize + frame.payload.length + trailerSize

def withTtl (frame : Frame) (ttl : UInt8) : Frame := { frame with ttl }

def header (frame : Frame) : Header :=
  { destination := frame.destination, source := frame.source,
    size := UInt8.ofNat frame.payload.length, flags := frame.flags, ttl := frame.ttl }

theorem wireSize_le (frame : Frame) : frame.wireSize ≤ maxFrame := by
  have bound := frame.payload_le
  unfold wireSize maxFrame
  omega

end Frame

end Hopline
