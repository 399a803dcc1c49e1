/-! The two control bits of a frame. The bus carries them and leaves their meaning
to the receiver. -/

namespace Hopline

structure Flags where
  write : Bool
  request : Bool
deriving DecidableEq, Inhabited

namespace Flags

def none : Flags := ⟨false, false⟩

def readRequest : Flags := ⟨false, true⟩

def writeRequest : Flags := ⟨true, true⟩

/-- The bits as a number: `write` counts one, `request` counts two. -/
def bits (flags : Flags) : UInt8 :=
  (if flags.write then 1 else 0) ||| (if flags.request then 2 else 0)

def ofBits (bits : UInt8) : Flags := ⟨bits &&& 1 != 0, bits &&& 2 != 0⟩

def label (flags : Flags) : String :=
  (if flags.write then "W" else "R") ++ "/" ++ (if flags.request then "REQ" else "RSP")

theorem ofBits_bits (flags : Flags) : ofBits flags.bits = flags := by
  obtain ⟨write, request⟩ := flags
  cases write <;> cases request <;> decide

end Flags

end Hopline
