import Hopline.Codec.Fault
import Hopline.Codec.ByteOrder
import Hopline.Codec.Hook
import Hopline.Text.Record

/-! The encoding cursor. It lays fields into a fixed region or hands them to a
sink, packs bit-fields from the lowest bit of a staging byte, and keeps its first
fault: after that nothing moves it and nothing reaches its destination. -/

namespace Hopline.Codec

inductive Destination
  | region (bytes : Bytes)
  /-- A consumer of single bytes with everything it has been handed. -/
  | sink (emitted : Bytes)
deriving DecidableEq, Inhabited

def maxLength : Nat := 0xFFFFFFFFFFFFFFFF

def Destination.capacity : Destination → Nat
  | .region bytes => bytes.length
  | .sink _ => maxLength

/-- Lays `bytes` down from `position` on. A region keeps everything else; a sink
only ever grows. -/
def Destination.place (destination : Destination) (position : Nat) (bytes : Bytes) : Destination :=
  match destination with
  | .region old => .region (old.take position ++ bytes ++ old.drop (position + bytes.length))
  | .sink emitted => .sink (emitted ++ bytes)

def Destination.contents : Destination → Bytes
  | .region bytes => bytes
  | .sink emitted => emitted

structure Writer where
  destination : Destination
  position : Nat
  order : ByteOrder
  /-- Bits waiting for their byte to fill up. -/
  stage : UInt8
  staged : Nat
  fault : Option Fault
deriving DecidableEq, Inhabited

namespace Writer

def ofDestination (destination : Destination) : Writer :=
  { destination, position := 0, order := .native, stage := 0, staged := 0, fault := none }

def ofRegion (bytes : Bytes) : Writer := ofDestination (.region bytes)

def ofSink : Writer := ofDestination (.sink [])

def capacity (writer : Writer) : Nat := writer.destination.capacity

def remaining (writer : Writer) : Nat := writer.capacity - writer.position

def written (writer : Writer) : Bytes :=
  match writer.destination with
  | .region bytes => bytes.take writer.position
  | .sink _ => []

def fail (writer : Writer) (fault : Fault) : Writer :=
  { writer with fault := writer.fault.or (some fault) }

def store (writer : Writer) (bytes : Bytes) : Writer :=
  { writer with
    destination := writer.destination.place writer.position bytes
    position := writer.position + bytes.length }

/-- Commits the staging byte if it holds any bits. The bits are gone even when
there is no room for them. -/
def align (writer : Writer) : Writer :=
  if writer.staged = 0 then writer
  else
    let byte := writer.stage
    let cleared := { writer with stage := 0, staged := 0 }
    if cleared.remaining = 0 then cleared.fail .bufferOverflow else cleared.store [byte]

/-- Runs `action` on the aligned cursor. A cursor that has failed, or that fails
to align, does not run it. -/
def aligned (writer : Writer) (action : Writer → Writer) : Writer :=
  if writer.fault.isSome then writer
  else
    let ready := writer.align
    if ready.fault.isSome then ready else action ready

def put (writer : Writer) (field : Bytes) : Writer :=
  writer.aligned fun ready =>
    if ready.remaining < field.length then ready.fail .bufferOverflow else ready.store field

def flip (writer : Writer) : Writer := { writer with order := writer.order.flipped }

def setOrder (writer : Writer) (order : ByteOrder) : Writer := { writer with order }

def write8 (writer : Writer) (value : UInt8) : Writer := writer.put [value]

def write16 (writer : Writer) (value : UInt16) : Writer :=
  writer.put (writer.order.arrange (littleEndian 2 value.toNat))

def write32 (writer : Writer) (value : UInt32) : Writer :=
  writer.put (writer.order.arrange (littleEndian 4 value.toNat))

def writeSigned8 (writer : Writer) (value : Int8) : Writer := writer.write8 value.toUInt8

def writeSigned16 (writer : Writer) (value : Int16) : Writer := writer.write16 value.toUInt16

def writeSigned32 (writer : Writer) (value : Int32) : Writer := writer.write32 value.toUInt32

def writeBytes (writer : Writer) (span : Bytes) : Writer :=
  writer.put (writer.order.arrange span)

end Writer

def noLimit : Nat := 0

def limited (length limit : Nat) : Nat := if limit = noLimit then length else min length limit

theorem limited_le (length limit : Nat) : limited length limit ≤ length := by
  unfold limited
  split <;> omega

/-- The part of a text that a string field holds: up to its first zero byte, and
at most `limit` bytes. -/
def textField (text : Bytes) (limit : Nat) : Bytes :=
  let text := text.takeWhile (· != 0)
  text.take (limited text.length limit)

namespace Writer

/-- Writes a string field and the zero byte that ends it. Where the region is too
short the field is cut to fit, still ended, and reported as an overflow. -/
def writeString (writer : Writer) (text : Bytes) (limit : Nat) : Writer :=
  writer.aligned fun ready =>
    let wanted := textField text limit
    if ready.remaining = 0 then ready.fail .bufferOverflow
    else
      let kept := wanted.take (ready.remaining - 1)
      let ended := ready.store (kept ++ [0])
      if kept.length < wanted.length then ended.fail .bufferOverflow else ended

def stageBit (writer : Writer) (bit : Bool) : Writer :=
  let mask : UInt8 := if bit then 1 <<< UInt8.ofNat writer.staged else 0
  let grown := { writer with stage := writer.stage ||| mask, staged := writer.staged + 1 }
  if grown.staged = 8 then grown.align else grown

def stageBits (writer : Writer) : List Bool → Writer
  | [] => writer
  | bit :: rest => if writer.fault.isSome then writer else (writer.stageBit bit).stageBits rest

def writeBits (writer : Writer) (value : UInt8) (width : Nat) : Writer :=
  if writer.fault.isSome then writer
  else if width = 0 ∨ 8 < width then writer.fail .invalidArgument
  else writer.stageBits (lowBits value width)

def writeBit (writer : Writer) (bit : Bool) : Writer := writer.writeBits bit.toUInt8 1

def flush (writer : Writer) : Writer := if writer.fault.isSome then writer else writer.align

/-- The span that a signing hook is shown, if it is called at all. -/
def signedSpan? (writer : Writer) : Option Bytes :=
  let ready := writer.flush
  match ready.fault, ready.destination with
  | none, .region bytes => some (bytes.take ready.position)
  | _, _ => none

def sign (writer : Writer) (hook : Signer) : Writer :=
  writer.aligned fun ready =>
    match ready.destination with
    | .sink _ => ready.fail .notReady
    | .region bytes =>
      let (span, signed) := hook.run (bytes.take ready.position)
      let patched := { ready with destination := .region (span ++ bytes.drop ready.position) }
      if signed then patched else patched.fail .noSign

/-- Moves the cursor by `delta`, no further than the ends of the region. A sink
cannot be moved over. -/
def seek (writer : Writer) (delta : Int) : Writer :=
  writer.aligned fun ready =>
    match ready.destination with
    | .sink _ => if delta = 0 then ready else ready.fail .notReady
    | .region bytes => { ready with position := min (ready.position + delta).toNat bytes.length }

def status (writer : Writer) : Except Fault Unit :=
  match writer.fault with
  | some fault => .error fault
  | none => .ok ()

def outcome (writer : Writer) : Except Fault Nat :=
  match writer.fault with
  | some fault => .error fault
  | none => .ok writer.position

def finish (writer : Writer) : Writer × Except Fault Nat := (writer.flush, writer.flush.outcome)

def describe (writer : Writer) : String :=
  let kind := match writer.destination with
    | .region _ => "\"buffer\""
    | .sink _ => "\"sink\""
  Text.record "Serializer"
    [⟨"output", kind⟩, ⟨"pos", toString writer.position⟩, ⟨"order", writer.order.name⟩,
      ⟨"staged_bits", toString writer.staged⟩,
      ⟨"error", Text.optional (writer.fault.map Fault.name)⟩] false

end Writer

end Hopline.Codec
