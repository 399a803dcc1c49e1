import Hopline.Command.Payload
import Hopline.Command.Report

/-! The command that encodes one frame. -/

namespace Hopline.Command

structure EncodePlan where
  destination : Address
  source : Address
  flags : Flags
  ttl : UInt8
  payload : PayloadSource
deriving DecidableEq, Inhabited

namespace EncodePlan

def options : List OptionSpec :=
  [valued "dst" addressText, valued "src" addressText, valued "ttl" ttlText, switch "write",
    switch "request"] ++ PayloadSource.options

def ofReading (reading : Reading) : EncodePlan :=
  { destination := reading.getD "dst" addressText 0
    source := reading.getD "src" addressText 0
    flags := ⟨reading.has "write", reading.has "request"⟩
    ttl := reading.getD "ttl" ttlText defaultTtl
    payload := .ofReading reading }

def message (plan : EncodePlan) (payload : Bytes) : Message :=
  { destination := plan.destination, source := plan.source, flags := plan.flags, ttl := plan.ttl,
    payload }

def encodeMessage (message : Message) : Except CommandError (Frame × Bytes) := do
  let frame ← (Frame.ofMessage message).mapError (CommandError.ofFrame "encode failed")
  let wire ← (frame.encode .checksum).mapError fun fault =>
    CommandError.ofFrame "encode failed" (.codec fault)
  return (frame, wire)

/-- Prints an encoded frame; raw output is what goes on the line. -/
def print (frame : Frame) (wire : Bytes) : OutputFormat → Bytes
  | .raw => wire
  | format => printFrames [⟨frame, some wire⟩] format

def execute (plan : EncodePlan) (environment : Environment) (format : OutputFormat) :
    Except CommandError Outcome := do
  let payload ← plan.payload.read environment
  let (frame, wire) ← encodeMessage (plan.message payload)
  return { code := .success, output := print frame wire format }

end EncodePlan

end Hopline.Command
