import Hopline.Codec.Writer

/-! The decoding cursor. It takes fields from captured input, unpacks bit-fields
from the lowest bit of a fetched byte, drops what is left of that byte before any
other field, and keeps its first fault. A read that fails yields nothing. -/

namespace Hopline.Codec

structure Reader where
  input : Bytes
  position : Nat
  order : ByteOrder
  /-- Bits of the fetched byte that have not been read. -/
  stage : UInt8
  staged : Nat
  fault : Option Fault
deriving DecidableEq, Inhabited

namespace Reader

def ofInput (input : Bytes) : Reader :=
  { input, position := 0, order := .native, stage := 0, staged := 0, fault := none }

def capacity (reader : Reader) : Nat := reader.input.length

def remaining (reader : Reader) : Nat := reader.capacity - reader.position

def rest (reader : Reader) : Bytes := reader.input.drop reader.position

def consumed (reader : Reader) : Bytes := reader.input.take reader.position

def fail (reader : Reader) (fault : Fault) : Reader :=
  { reader with fault := reader.fault.or (some fault) }

def align (reader : Reader) : Reader := { reader with stage := 0, staged := 0 }

def flip (reader : Reader) : Reader := { reader with order := reader.order.flipped }

def setOrder (reader : Reader) (order : ByteOrder) : Reader := { reader with order }

def take (reader : Reader) (width : Nat) : Reader × Option Bytes :=
  let ready := reader.align
  if ready.fault.isSome then (ready, none)
  else if ready.remaining < width then (ready.fail .bufferOverrun, none)
  else ({ ready with position := ready.position + width }, some (ready.rest.take width))

def read8 (reader : Reader) : Reader × Option UInt8 :=
  let (after, field) := reader.take 1
  (after, field.map fun bytes => UInt8.ofNat (ofLittleEndian bytes))

def read16 (reader : Reader) : Reader × Option UInt16 :=
  let (after, field) := reader.take 2
  (after, field.map fun bytes => UInt16.ofNat (ofLittleEndian (after.order.arrange bytes)))

def read32 (reader : Reader) : Reader × Option UInt32 :=
  let (after, field) := reader.take 4
  (after, field.map fun bytes => UInt32.ofNat (ofLittleEndian (after.order.arrange bytes)))

def readSigned8 (reader : Reader) : Reader × Option Int8 :=
  let (after, value) := reader.read8
  (after, value.map UInt8.toInt8)

def readSigned16 (reader : Reader) : Reader × Option Int16 :=
  let (after, value) := reader.read16
  (after, value.map UInt16.toInt16)

def readSigned32 (reader : Reader) : Reader × Option Int32 :=
  let (after, value) := reader.read32
  (after, value.map UInt32.toInt32)

/-- Reads a span of `width` bytes; against the native order it comes back to
front. -/
def readBytes (reader : Reader) (width : Nat) : Reader × Option Bytes :=
  let (after, field) := reader.take width
  (after, field.map after.order.arrange)

/-- Reads a string field for a destination of `size` bytes, of which one is for
the zero byte that ends it. The cursor ends just past the field even where its
text is cut short, by `limit` or, as a fault, by the destination. -/
def readString (reader : Reader) (size limit : Nat) : Reader × Option Bytes :=
  let ready := reader.align
  if ready.fault.isSome then (ready, none)
  else if size = 0 then (ready.fail .invalidArgument, none)
  else
    let text := ready.rest.takeWhile (· != 0)
    if text.length = ready.rest.length then (ready.fail .bufferOverrun, none)
    else
      let wanted := text.take (limited text.length limit)
      let kept := wanted.take (size - 1)
      let after := { ready with position := ready.position + text.length + 1 }
      (if kept.length < wanted.length then after.fail .bufferOverflow else after,
        some (kept ++ [0]))

def readStagedBit (reader : Reader) : Reader × Option Bool :=
  if reader.staged = 0 then
    match reader.rest with
    | [] => (reader.fail .bufferOverrun, none)
    | byte :: _ =>
      ({ reader with stage := byte >>> 1, staged := 7, position := reader.position + 1 },
        some (byte &&& 1 == 1))
  else
    ({ reader with stage := reader.stage >>> 1, staged := reader.staged - 1 },
      some (reader.stage &&& 1 == 1))

def readStagedBits (reader : Reader) : (count : Nat) → Reader × Option (List Bool)
  | 0 => (reader, some [])
  | count + 1 =>
    match reader.readStagedBit with
    | (after, none) => (after, none)
    | (after, some bit) =>
      let (last, bits) := after.readStagedBits count
      (last, bits.map (bit :: ·))

def readBits (reader : Reader) (width : Nat) : Reader × Option UInt8 :=
  if reader.fault.isSome then (reader, none)
  else if width = 0 ∨ 8 < width then (reader.fail .invalidArgument, none)
  else
    let (after, bits) := reader.readStagedBits width
    (after, bits.map fun bits => UInt8.ofNat (ofBits bits))

def readBit (reader : Reader) : Reader × Option Bool :=
  let (after, value) := reader.readBits 1
  (after, value.map (· != 0))

/-- The span that a validation hook is shown, if it is called at all. -/
def validatedSpan? (reader : Reader) : Option Bytes :=
  if reader.fault.isSome then none else some reader.consumed

def validate (reader : Reader) (hook : Validator) : Reader :=
  let ready := reader.align
  if ready.fault.isSome then ready
  else if hook ready.consumed then ready else ready.fail .invalidData

/-- Moves the cursor by `delta`, no further than the ends of the input. -/
def seek (reader : Reader) (delta : Int) : Reader :=
  let ready := reader.align
  if ready.fault.isSome then ready
  else { ready with position := min (ready.position + delta).toNat ready.input.length }

def status (reader : Reader) : Except Fault Unit :=
  match reader.fault with
  | some fault => .error fault
  | none => .ok ()

def outcome (reader : Reader) : Except Fault Nat :=
  match reader.fault with
  | some fault => .error fault
  | none => .ok reader.position

def finish (reader : Reader) : Reader × Except Fault Nat := (reader.align, reader.align.outcome)

def describe (reader : Reader) : String :=
  Text.record "Deserializer"
    [⟨"input", Text.sequence (reader.input.map fun byte => toString byte.toNat)⟩,
      ⟨"pos", toString reader.position⟩, ⟨"order", reader.order.name⟩,
      ⟨"stage", toString reader.stage.toNat⟩, ⟨"staged_bits", toString reader.staged⟩,
      ⟨"error", Text.optional (reader.fault.map Fault.name)⟩] false

end Reader

end Hopline.Codec
