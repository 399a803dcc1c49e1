/-! Traffic counters of a bus. All of them wrap. -/

namespace Hopline

structure Counters where
  delivered : UInt32
  forwarded : UInt32
  /-- Frames queued for the line without error, forwarded ones included. -/
  transmitted : UInt32
  expired : UInt32
  /-- Frames that could not be queued or sent. -/
  txErrors : UInt32
deriving DecidableEq, Inhabited

def Counters.zero : Counters :=
  { delivered := 0, forwarded := 0, transmitted := 0, expired := 0, txErrors := 0 }

structure BusStats extends Counters where
  rejected : UInt32
  overflowed : UInt32
deriving DecidableEq, Inhabited

end Hopline
