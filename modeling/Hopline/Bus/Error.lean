import Hopline.Frame.Error

/-! Why a message could not be sent. -/

namespace Hopline

inductive BusError
  | payloadTooLarge (size max : Nat)
  | zeroTtl
  | frame (error : FrameError)
deriving DecidableEq, Inhabited

def BusError.message : BusError → String
  | .payloadTooLarge size max => payloadTooLargeMessage size max
  | .zeroTtl => "time-to-live must be at least 1"
  | .frame error => "frame error: " ++ error.message

end Hopline
