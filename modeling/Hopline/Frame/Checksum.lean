import Hopline.Codec.Hook

/-! The frame checksum: a 16-bit cyclic redundancy check with generator
`x^16 + x^12 + x^5 + 1`, preset to all ones, most significant bit first. The
trailer of a frame holds it low byte first. -/

namespace Hopline

namespace Checksum

/-- The generator without its leading term. -/
def generator : UInt16 := 0x1021

def preset : UInt16 := 0xFFFF

def shift (register : UInt16) : UInt16 :=
  if register &&& 0x8000 != 0 then (register <<< 1) ^^^ generator else register <<< 1

def shifts (register : UInt16) : (count : Nat) → UInt16
  | 0 => register
  | count + 1 => shifts (shift register) count

def absorb (register : UInt16) (byte : UInt8) : UInt16 :=
  shifts (register ^^^ (byte.toUInt16 <<< 8)) 8

end Checksum

def checksum (data : Bytes) : UInt16 := data.foldl Checksum.absorb Checksum.preset

namespace Checksum

def size : Nat := 2

def body (span : Bytes) : Bytes := span.take (span.length - size)

def trailer (span : Bytes) : Bytes := span.drop (span.length - size)

def trailerFor (body : Bytes) : Bytes := littleEndian size (checksum body).toNat

theorem length_trailerFor (body : Bytes) : (trailerFor body).length = size :=
  length_littleEndian _ _

/-- Overwrites the trailer of a span with the checksum of its body. -/
def signer : Codec.Signer where
  run span :=
    if span.length < size then (span, false) else (body span ++ trailerFor (body span), true)
  length_run span := by
    split
    · rfl
    · simp only [List.length_append, body, List.length_take, length_trailerFor]
      omega

def validator : Codec.Validator := fun span =>
  !(span.length < size) && checksum (body span) == UInt16.ofNat (ofLittleEndian (trailer span))

end Checksum

end Hopline
