import Hopline.Command.Usage

/-! The program on a real machine: it fetches what a command wants to read, lets the
command run, and prints what it printed. -/

namespace Hopline.Command

/-- The number by which the machine goes for a failure to read a folder as a file. -/
def directoryCode : UInt32 := 21

def failureOfError (error : IO.Error) : Failure :=
  match error with
  | .noFileOrDirectory .. => FileFailure.missing
  | .inappropriateType _ code _ =>
    if code = directoryCode then FileFailure.directory else FileFailure.noDirectory
  | .permissionDenied .. => ⟨.permissionDenied, "Permission denied (os error 13)"⟩
  | .timeExpired .. => ⟨.timedOut, toString error⟩
  | .interrupted .. => ⟨.interrupted, toString error⟩
  | _ => ⟨.other, toString error⟩

def attempt (action : IO Bytes) : IO (Except Failure Bytes) := do
  try
    return .ok (← action)
  catch error =>
    return .error (failureOfError error)

partial def readAll (stream : IO.FS.Stream) (read : ByteArray) : IO Bytes := do
  let chunk ← stream.read 65536
  if chunk.isEmpty then return read.toList else readAll stream (read ++ chunk)

def fetch : Wanted → IO (Except Failure Bytes)
  | .nothing => return .ok []
  | .standardInput => attempt do readAll (← IO.getStdin) ByteArray.empty
  | .file path => attempt do return (← IO.FS.readBinFile path).toList

def run (arguments : List String) : IO UInt32 := do
  let stdout ← IO.getStdout
  match Invocation.ofArguments arguments with
  | .error fault =>
    let target ← if fault.exitCode = 0 then pure stdout else IO.getStderr
    for line in fault.notice do
      target.putStrLn line
    return UInt32.ofNat fault.exitCode
  | .ok invocation =>
    let environment := Environment.supplying (← fetch invocation.plan.wanted)
    match invocation.execute environment (← stdout.isTty) with
    | .error error =>
      (← IO.getStderr).putStrLn ("error: " ++ error.message)
      return UInt32.ofNat error.code.toNat
    | .ok outcome =>
      stdout.write ⟨outcome.output.toArray⟩
      stdout.flush
      return UInt32.ofNat outcome.code.toNat

end Hopline.Command

def main (arguments : List String) : IO UInt32 := Hopline.Command.run arguments
