import Hopline.Codec.Fault
import Hopline.Line.Error

/-! Why a frame could not be built, encoded, queued or sent. -/

namespace Hopline

inductive FrameError
  | payloadTooLarge (size max : Nat)
  /-- The codec failed: no room, a refused checksum, a failed signature. -/
  | codec (fault : Codec.Fault)
  | queueFull (needed free : Nat)
  | line (error : LineError)
deriving DecidableEq, Inhabited

def payloadTooLargeMessage (size max : Nat) : String :=
  s!"payload too large ({size} bytes, max {max})"

def FrameError.message : FrameError → String
  | .payloadTooLarge size max => payloadTooLargeMessage size max
  | .codec fault => "frame codec error: " ++ fault.message
  | .queueFull needed free => s!"transmit queue full ({needed} bytes needed, {free} free)"
  | .line error => "frame line error: " ++ error.message

end Hopline
