import Hopline.Command.Environment
import Hopline.Command.Options
import Hopline.Command.Report

/-! The command that looks for frames in a byte stream. -/

namespace Hopline.Command

inductive StreamSource
  | hex (digits : String)
  | file (path : String)
  | standardInput
deriving DecidableEq, Inhabited

def StreamSource.wanted : StreamSource → Wanted
  | .hex _ => .nothing
  | .file path => .file path
  | .standardInput => .standardInput

def StreamSource.read (environment : Environment) : StreamSource → Except CommandError Bytes
  | .hex digits => readHex digits
  | .file path => environment.readFile path
  | .standardInput => environment.readStandardInput

def StreamReport.ofBytes (sync : SyncPolicy) (bytes : Bytes) : StreamReport :=
  let reception := (Window.empty .checksum sync).feed bytes
  { frames := reception.frames.map fun (_, frame) => ⟨frame, none⟩
    bytes := bytes.length
    stats := reception.window.stats
    pending := reception.window.length }

structure DecodePlan where
  stream : StreamSource
  sync : SyncPolicy
deriving DecidableEq, Inhabited

namespace DecodePlan

def options : List OptionSpec := [valued "file" pathText, valued "sync" syncText]

def positional : String := "HEX"

def ofReading (reading : Reading) : DecodePlan :=
  { stream := match reading.value? positional, reading.value? "file" with
      | some digits, _ => .hex digits
      | none, some path => .file path
      | none, none => .standardInput
    sync := reading.getD "sync" syncText .headOnly }

/-- A stream without a single frame is invalid data, and is reported all the same. -/
def outcome (report : StreamReport) (format : OutputFormat) : Outcome :=
  { code := if report.frames.isEmpty then .dataInvalid else .success
    output := report.print format }

def execute (plan : DecodePlan) (environment : Environment) (format : OutputFormat) :
    Except CommandError Outcome := do
  let bytes ← plan.stream.read environment
  return outcome (StreamReport.ofBytes plan.sync bytes) format

end DecodePlan

end Hopline.Command
