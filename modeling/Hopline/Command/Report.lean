import Hopline.Command.Values
import Hopline.Receive.Window
import Hopline.Ring.Basic
import Hopline.Text.JsonText
import Hopline.Text.Table

/-! What commands print, and how a command ends that runs to its end. Each report has four
forms: compact JSON, tables, plain lines, and raw bytes. -/

namespace Hopline.Command

open Text

inductive OutputFormat
  | json
  | table
  | pretty
  | raw
deriving DecidableEq, Inhabited

structure Outcome where
  code : ExitCode
  output : Bytes
deriving DecidableEq, Inhabited

def line (text : String) : Bytes := utf8Bytes (text ++ "\n")

def lines (texts : List String) : Bytes := texts.flatMap line

def word16 (value : UInt16) : JsonValue := .number value.toNat

def word32 (value : UInt32) : JsonValue := .number value.toNat

/-- A frame as it is reported, with its bytes on the line where they are of interest. -/
structure FrameReport where
  frame : Frame
  wire : Option Bytes
deriving Inhabited

namespace FrameReport

def toJson (report : FrameReport) : JsonValue :=
  let frame := report.frame
  .object ([("destination", word16 frame.destination), ("source", word16 frame.source),
      ("write", .truth frame.flags.write), ("request", .truth frame.flags.request),
      ("ttl", .number frame.ttl.toNat), ("payload_size", .number frame.payload.length),
      ("payload", .text (payloadPreview frame.payload))]
    ++ (report.wire.map fun wire => ("wire", .text (hexBytes wire))).toList)

def toLine (report : FrameReport) : String :=
  let frame := report.frame
  "dst=" ++ hexWord frame.destination ++ " src=" ++ hexWord frame.source
    ++ " flags=" ++ frame.flags.label ++ " ttl=" ++ toString frame.ttl.toNat
    ++ " size=" ++ toString frame.payload.length
    ++ " payload=" ++ payloadPreview frame.payload
    ++ ((report.wire.map fun wire => " wire=" ++ hexBytes wire).getD "")

def toRow (report : FrameReport) : List String :=
  let frame := report.frame
  [hexWord frame.destination, hexWord frame.source, frame.flags.label,
    toString frame.ttl.toNat, toString frame.payload.length, payloadPreview frame.payload]

end FrameReport

def frameTable (reports : List FrameReport) : Table :=
  ⟨["DST", "SRC", "FLAGS", "TTL", "SIZE", "PAYLOAD"], reports.map FrameReport.toRow⟩

def printFrames (reports : List FrameReport) : OutputFormat → Bytes
  | .json => line (JsonValue.array (reports.map FrameReport.toJson)).render
  | .table => line (frameTable reports).render
  | .pretty => lines (reports.map FrameReport.toLine)
  | .raw => reports.flatMap fun report => report.frame.payload

structure StreamReport where
  frames : List FrameReport
  bytes : Nat
  stats : ReceiveStats
  pending : Nat
deriving Inhabited

namespace StreamReport

def toJson (report : StreamReport) : JsonValue :=
  .object [("frames", .array (report.frames.map FrameReport.toJson)),
    ("rx", .object [("bytes", .number report.bytes), ("frames", word32 report.stats.frames),
      ("rejected", word32 report.stats.rejected), ("overflowed", word32 report.stats.overflowed),
      ("pending", .number report.pending)])]

def counts (report : StreamReport) : List String :=
  [toString report.bytes, toString report.stats.frames.toNat,
    toString report.stats.rejected.toNat, toString report.stats.overflowed.toNat,
    toString report.pending]

def countTable (report : StreamReport) : Table :=
  ⟨["BYTES", "FRAMES", "REJECTED", "OVERFLOWED", "PENDING"], [report.counts]⟩

def countLine (report : StreamReport) : String :=
  String.intercalate " " (List.zipWith (· ++ "=" ++ ·)
    ["bytes", "frames", "rejected", "overflowed", "pending"] report.counts)

def print (report : StreamReport) : OutputFormat → Bytes
  | .json => line report.toJson.render
  | .table => lines [(frameTable report.frames).render, report.countTable.render]
  | .pretty => lines (report.frames.map FrameReport.toLine ++ [report.countLine])
  | .raw => printFrames report.frames .raw

end StreamReport

structure DeviceReport where
  device : Nat
  address : Address
  stats : BusStats
deriving Inhabited

namespace DeviceReport

def toJson (report : DeviceReport) : JsonValue :=
  .object [("device", .number report.device), ("address", word16 report.address),
    ("transmitted", word32 report.stats.transmitted),
    ("forwarded", word32 report.stats.forwarded), ("delivered", word32 report.stats.delivered),
    ("expired", word32 report.stats.expired), ("rejected", word32 report.stats.rejected)]

def counts (report : DeviceReport) : List String :=
  [report.stats.transmitted, report.stats.forwarded, report.stats.delivered,
    report.stats.expired, report.stats.rejected].map fun count => toString count.toNat

def toRow (report : DeviceReport) : List String :=
  [toString report.device, hexWord report.address] ++ report.counts

def toLine (report : DeviceReport) : String :=
  "  device " ++ toString report.device ++ " (" ++ hexWord report.address ++ "): "
    ++ String.intercalate " " (List.zipWith (· ++ "=" ++ ·)
      ["tx", "fwd", "rx", "expired", "rejected"] report.counts)

end DeviceReport

structure SimulationReport where
  source : Address
  destination : Address
  ttl : UInt8
  delivered : Bool
  steps : Nat
  deliveries : List Delivery
  devices : List DeviceReport
deriving Inhabited

namespace SimulationReport

/-- The device is the one that the handler was made for. -/
def deliveryJson (delivery : Delivery) : JsonValue :=
  .object [("device", .number delivery.handler), ("address", word16 delivery.frame.destination),
    ("source", word16 delivery.frame.source), ("ttl", .number delivery.frame.ttl.toNat),
    ("payload", .text (payloadPreview delivery.frame.payload))]

def toJson (report : SimulationReport) : JsonValue :=
  .object [("devices", .number report.devices.length), ("source", word16 report.source),
    ("destination", word16 report.destination), ("ttl", .number report.ttl.toNat),
    ("delivered", .truth report.delivered), ("steps", .number report.steps),
    ("deliveries", .array (report.deliveries.map deliveryJson)),
    ("stats", .array (report.devices.map DeviceReport.toJson))]

def deliveryRow (delivery : Delivery) : List String :=
  [toString delivery.handler, hexWord delivery.frame.destination, hexWord delivery.frame.source,
    toString delivery.frame.ttl.toNat, payloadPreview delivery.frame.payload]

def deliveryTable (report : SimulationReport) : Table :=
  ⟨["DEVICE", "ADDRESS", "SOURCE", "TTL", "PAYLOAD"], report.deliveries.map deliveryRow⟩

def deviceTable (report : SimulationReport) : Table :=
  ⟨["DEVICE", "ADDRESS", "TX", "FORWARDED", "DELIVERED", "EXPIRED", "REJECTED"],
    report.devices.map DeviceReport.toRow⟩

def summary (report : SimulationReport) : String :=
  hexWord report.source ++ " -> " ++ hexWord report.destination
    ++ " over " ++ toString report.devices.length ++ " devices, ttl=" ++ toString report.ttl.toNat
    ++ ": " ++ (if report.delivered then "delivered" else "not delivered")
    ++ " after " ++ toString report.steps ++ " steps"

def print (report : SimulationReport) : OutputFormat → Bytes
  | .json => line report.toJson.render
  | .table => lines [report.deliveryTable.render, report.deviceTable.render]
  | .pretty => lines (report.summary :: report.devices.map DeviceReport.toLine)
  | .raw => report.deliveries.flatMap fun delivery => delivery.frame.payload

end SimulationReport

end Hopline.Command
