import Hopline.Line.Carrier

/-! A line between two devices: a queue of bytes that the far end collects. Once
the far end is gone the line takes nothing more. -/

namespace Hopline

/-- Bytes on their way, or nothing once the far end is gone. -/
structure Channel where
  queued : Option Bytes
deriving DecidableEq, Inhabited

namespace Channel

def fresh : Channel := ⟨some []⟩

def transmit (channel : Channel) (byte : UInt8) : Channel × Except LineError Unit :=
  match channel.queued with
  | some bytes => (⟨some (bytes ++ [byte])⟩, .ok ())
  | none => (channel, .error .disconnected)

def collect (channel : Channel) : Channel × Option Bytes :=
  (⟨channel.queued.map fun _ => []⟩, channel.queued)

/-- Takes the far end away, and with it everything on the line. -/
def hangUp (_ : Channel) : Channel := ⟨none⟩

end Channel

instance : Carrier Channel where
  transmit := Channel.transmit

end Hopline
