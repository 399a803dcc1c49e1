/-! The ways a codec cursor can fail. A cursor keeps the first fault it meets. -/

namespace Hopline.Codec

inductive Fault
  /-- Encoding ran out of room. -/
  | bufferOverflow
  | invalidData
  | noSign
  | invalidArgument
  | notReady
  /-- Decoding ran past the input. -/
  | bufferOverrun
deriving DecidableEq, Inhabited

def Fault.code : Fault → UInt8
  | .bufferOverflow => 1
  | .invalidData => 2
  | .noSign => 3
  | .invalidArgument => 4
  | .notReady => 5
  | .bufferOverrun => 6

def Fault.name : Fault → String
  | .bufferOverflow => "BufferOverflow"
  | .invalidData => "InvalidData"
  | .noSign => "NoSign"
  | .invalidArgument => "InvalidArgument"
  | .notReady => "NotReady"
  | .bufferOverrun => "BufferOverrun"

def Fault.message : Fault → String
  | .bufferOverflow => "buffer overflow"
  | .invalidData => "invalid data"
  | .noSign => "signing failed"
  | .invalidArgument => "invalid argument"
  | .notReady => "not ready"
  | .bufferOverrun => "buffer overrun"

def Fault.all : List Fault :=
  [.bufferOverflow, .invalidData, .noSign, .invalidArgument, .notReady, .bufferOverrun]

end Hopline.Codec
