import Hopline.Codec.Reader

/-! Field scripts: the operations of the two cursors as data, so that what holds
of one operation can be said of every run. -/

namespace Hopline.Codec

inductive WriteStep
  | unsigned8 (value : UInt8)
  | unsigned16 (value : UInt16)
  | unsigned32 (value : UInt32)
  | signed8 (value : Int8)
  | signed16 (value : Int16)
  | signed32 (value : Int32)
  | bytes (span : Bytes)
  | string (text : Bytes) (limit : Nat)
  | bit (value : Bool)
  | bits (value : UInt8) (width : Nat)
  | flush
  | seek (delta : Int)
  | flip
  | order (order : ByteOrder)
  | sign (hook : Signer)

namespace Writer

def perform (writer : Writer) : WriteStep → Writer
  | .unsigned8 value => writer.write8 value
  | .unsigned16 value => writer.write16 value
  | .unsigned32 value => writer.write32 value
  | .signed8 value => writer.writeSigned8 value
  | .signed16 value => writer.writeSigned16 value
  | .signed32 value => writer.writeSigned32 value
  | .bytes span => writer.writeBytes span
  | .string text limit => writer.writeString text limit
  | .bit value => writer.writeBit value
  | .bits value width => writer.writeBits value width
  | .flush => writer.flush
  | .seek delta => writer.seek delta
  | .flip => writer.flip
  | .order order => writer.setOrder order
  | .sign hook => writer.sign hook

def run (writer : Writer) (script : List WriteStep) : Writer := script.foldl perform writer

end Writer

inductive ReadStep
  | unsigned8
  | unsigned16
  | unsigned32
  | signed8
  | signed16
  | signed32
  | bytes (width : Nat)
  | string (size limit : Nat)
  | bit
  | bits (width : Nat)
  | align
  | seek (delta : Int)
  | flip
  | order (order : ByteOrder)
  | validate (hook : Validator)

inductive Value
  | number (value : Int)
  | bytes (span : Bytes)
  | bit (value : Bool)
deriving DecidableEq, Inhabited

/-- What a variable holds after a read into it. A span covers the front of what was there, and a
read that yields nothing leaves everything as it was. -/
def Value.overwrite (held : Value) : Option Value → Value
  | none => held
  | some (.bytes span) =>
    match held with
    | .bytes old => .bytes (span ++ old.drop span.length)
    | _ => .bytes span
  | some value => value

namespace Reader

private def yields {α : Type} (wrap : α → Value) (read : Reader × Option α) :
    Reader × Option Value :=
  (read.1, read.2.map wrap)

def perform (reader : Reader) : ReadStep → Reader × Option Value
  | .unsigned8 => yields (fun value => .number value.toNat) reader.read8
  | .unsigned16 => yields (fun value => .number value.toNat) reader.read16
  | .unsigned32 => yields (fun value => .number value.toNat) reader.read32
  | .signed8 => yields (fun value => .number value.toInt) reader.readSigned8
  | .signed16 => yields (fun value => .number value.toInt) reader.readSigned16
  | .signed32 => yields (fun value => .number value.toInt) reader.readSigned32
  | .bytes width => yields .bytes (reader.readBytes width)
  | .string size limit => yields .bytes (reader.readString size limit)
  | .bit => yields .bit reader.readBit
  | .bits width => yields (fun value => .number value.toNat) (reader.readBits width)
  | .align => (reader.align, none)
  | .seek delta => (reader.seek delta, none)
  | .flip => (reader.flip, none)
  | .order order => (reader.setOrder order, none)
  | .validate hook => (reader.validate hook, none)

def run (reader : Reader) : List ReadStep → Reader × List (Option Value)
  | [] => (reader, [])
  | step :: rest =>
    let (after, value) := reader.perform step
    let (last, values) := after.run rest
    (last, value :: values)

end Reader

end Hopline.Codec
