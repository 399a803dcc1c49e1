import Hopline.Bus.Error
import Hopline.Schedule.Error

/-! Exit codes. A command that fails says why and with which code the process ends;
the code depends on the cause alone, the text also on what was being done. -/

namespace Hopline.Command

inductive ExitCode
  | success
  /-- The message was not delivered. -/
  | failure
  | lineError
  | permissionDenied
  | dataInvalid
  | usage
  | timeout
  | internal
deriving DecidableEq, Inhabited

def ExitCode.toNat : ExitCode → Nat
  | .success => 0
  | .failure => 1
  | .lineError => 3
  | .permissionDenied => 50
  | .dataInvalid => 60
  | .usage => 64
  | .timeout => 124
  | .internal => 125

structure CommandError where
  code : ExitCode
  message : String
deriving DecidableEq, Inhabited

namespace CommandError

def inContext (code : ExitCode) (context message : String) : CommandError :=
  ⟨code, context ++ ": " ++ message⟩

def ofFailure (context : String) (failure : Failure) : CommandError :=
  let code := match failure.kind with
    | .permissionDenied => .permissionDenied
    | .timedOut | .wouldBlock => .timeout
    | .notFound => .usage
    | _ => .internal
  inContext code context failure.message

def ofLine (context : String) : LineError → CommandError
  | .io failure => ofFailure context failure
  | .disconnected => inContext .lineError context (LineError.message .disconnected)

def ofFrame (context : String) (error : FrameError) : CommandError :=
  match error with
  | .line error => ofLine context error
  | .queueFull .. => inContext .lineError context error.message
  | .payloadTooLarge .. | .codec _ => inContext .dataInvalid context error.message

def ofBus (context : String) (error : BusError) : CommandError :=
  match error with
  | .frame error => ofFrame context error
  | .payloadTooLarge .. => inContext .dataInvalid context error.message
  | .zeroTtl => inContext .usage context error.message

def ofSchedule (context : String) (error : ScheduleError) : CommandError :=
  inContext .internal context error.message

end CommandError

end Hopline.Command
