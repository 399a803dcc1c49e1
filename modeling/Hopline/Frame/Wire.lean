import Hopline.Codec.Reader
import Hopline.Frame.Basic
import Hopline.Frame.Checksum

/-! The layout of a frame on the line. Little-endian destination and source, six
bits of size and two of flags in one byte, the hop budget, the payload, and a
trailer that the signing hook fills in over the whole frame. -/

namespace Hopline

open Codec

structure FrameHooks where
  sign : Signer
  validate : Validator

def FrameHooks.checksum : FrameHooks := ⟨Checksum.signer, Checksum.validator⟩

instance : Inhabited FrameHooks := ⟨.checksum⟩

namespace Header

def write (header : Header) (writer : Writer) : Writer :=
  ((((((writer.setOrder .little).write16 header.destination).write16 header.source).writeBits
    header.size sizeBits).writeBits header.flags.bits flagBits).write8 header.ttl)

def read (reader : Reader) : Reader × Option Header :=
  let (reader, destination) := (reader.setOrder .little).read16
  let (reader, source) := reader.read16
  let (reader, size) := reader.readBits sizeBits
  let (reader, flags) := reader.readBits flagBits
  let (reader, ttl) := reader.read8
  (reader, do
    let destination ← destination
    let source ← source
    let size ← size
    let flags ← flags
    let ttl ← ttl
    return { destination, source, size, flags := Flags.ofBits flags, ttl })

/-- The header at the start of `source`, once all of it is there. -/
def peek (source : Bytes) : Option Header :=
  if source.length < headerSize then none else (read (Reader.ofInput (source.take headerSize))).2

def toMessage (header : Header) (payload : Bytes) : Message :=
  { destination := header.destination, source := header.source, flags := header.flags,
    ttl := header.ttl, payload }

end Header

namespace Frame

/-- Writes a frame: header, payload, an empty trailer, and the signature over all
of it. -/
def write (frame : Frame) (hooks : FrameHooks) (writer : Writer) : Writer :=
  ((((frame.header.write writer).setOrder .native).writeBytes frame.payload).write16 0).sign
    hooks.sign |>.flush

def encodeInto (frame : Frame) (hooks : FrameHooks) (region : Bytes) : Writer :=
  frame.write hooks (Writer.ofRegion region)

def encode (frame : Frame) (hooks : FrameHooks) : Except Fault Bytes :=
  let writer := frame.encodeInto hooks (List.replicate maxFrame 0)
  writer.outcome.map fun length => writer.destination.contents.take length

end Frame

inductive Decoding
  | incomplete
  /-- The frame is there and was turned down, with the cursor at `position`. -/
  | refused (error : FrameError) (position : Nat)
  | complete (frame : Frame)
deriving DecidableEq, Inhabited

/-- Decodes the frame at the start of `source`; what follows it is ignored. -/
def Frame.decode (hooks : FrameHooks) (source : Bytes) : Decoding :=
  match Header.peek source with
  | none => .incomplete
  | some header =>
    if source.length < header.frameLength then .incomplete
    else
      let start := Reader.ofInput (source.take header.frameLength)
      let (reader, payload) :=
        ((start.seek headerSize).setOrder .native).readBytes header.size.toNat
      let reader := ((reader.seek trailerSize).validate hooks.validate).align
      match reader.fault, payload with
      | some fault, _ => .refused (.codec fault) reader.position
      | none, none => .incomplete
      | none, some payload =>
        match Frame.ofMessage (header.toMessage payload) with
        | .ok frame => .complete frame
        | .error error => .refused error reader.position

end Hopline
