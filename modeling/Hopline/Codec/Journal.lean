import Hopline.Codec.Reader
import Hopline.Event

/-! What the cursors leave in the journal. A cursor that has met its first fault does
not move any more, so where it stands is where it met the fault. -/

namespace Hopline.Codec

/-- The event of the first fault, if there has been one. -/
def Writer.events (writer : Writer) : List Event :=
  match writer.fault with
  | some fault => [.encodeFailed fault writer.position]
  | none => []

def Reader.events (reader : Reader) : List Event :=
  match reader.fault with
  | some fault => [.decodeFailed fault reader.position]
  | none => []

end Hopline.Codec
