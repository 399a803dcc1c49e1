import Hopline.Bytes
import Hopline.Line.Error

/-! Lines: whatever takes one byte after the other. A run of bytes stops at the
first one that the line does not take. -/

namespace Hopline

class Carrier (σ : Type) where
  /-- Hands one byte over. A byte that is not taken leaves no trace on the line. -/
  transmit : σ → UInt8 → σ × Except LineError Unit

/-- Hands a run of bytes over, up to the first failure. -/
def Carrier.transmitAll {σ : Type} [Carrier σ] (line : σ) : Bytes → σ × Except LineError Unit
  | [] => (line, .ok ())
  | byte :: rest =>
    match transmit line byte with
    | (line, .ok ()) => transmitAll line rest
    | (line, .error error) => (line, .error error)

end Hopline
