/-! Failures of the byte line and of the input and output beneath it. -/

namespace Hopline

inductive FailureKind
  | notFound
  | permissionDenied
  | timedOut
  | wouldBlock
  | interrupted
  | brokenPipe
  | unexpectedEnd
  | invalidData
  | invalidInput
  | alreadyExists
  | writeZero
  | connectionReset
  | isDirectory
  | notDirectory
  | other
deriving DecidableEq, Inhabited

def FailureKind.message : FailureKind → String
  | .notFound => "entity not found"
  | .permissionDenied => "permission denied"
  | .timedOut => "timed out"
  | .wouldBlock => "operation would block"
  | .interrupted => "operation interrupted"
  | .brokenPipe => "broken pipe"
  | .unexpectedEnd => "unexpected end of file"
  | .invalidData => "invalid data"
  | .invalidInput => "invalid input parameter"
  | .alreadyExists => "entity already exists"
  | .writeZero => "write zero"
  | .connectionReset => "connection reset"
  | .isDirectory => "is a directory"
  | .notDirectory => "not a directory"
  | .other => "other error"

structure Failure where
  kind : FailureKind
  message : String
deriving DecidableEq, Inhabited

/-- The failure of which only the kind is known. -/
def Failure.ofKind (kind : FailureKind) : Failure := ⟨kind, kind.message⟩

inductive LineError
  | io (failure : Failure)
  | disconnected
deriving DecidableEq, Inhabited

def LineError.message : LineError → String
  | .io failure => "line I/O error: " ++ failure.message
  | .disconnected => "line disconnected"

end Hopline
