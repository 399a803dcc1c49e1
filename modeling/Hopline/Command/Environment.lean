import Hopline.Bytes
import Hopline.Command.Exit

/-! What a command can read: files by their path, and the standard input. -/

namespace Hopline.Command

structure Environment where
  standardInput : Except Failure Bytes
  file : String → Except Failure Bytes

namespace FileFailure

def missing : Failure := ⟨.notFound, "No such file or directory (os error 2)"⟩

def noDirectory : Failure := ⟨.notDirectory, "Not a directory (os error 20)"⟩

def directory : Failure := ⟨.isDirectory, "Is a directory (os error 21)"⟩

def tooLong : Failure := ⟨.other, "File name too long (os error 36)"⟩

def zeroByte : Failure := ⟨.invalidInput, "file name contained an unexpected NUL byte"⟩

end FileFailure

inductive Wanted
  | nothing
  | standardInput
  | file (path : String)
deriving DecidableEq, Inhabited

namespace Environment

/-- Where everything that is asked for is the same. -/
def supplying (supply : Except Failure Bytes) : Environment :=
  { standardInput := supply, file := fun _ => supply }

def readFile (environment : Environment) (path : String) : Except CommandError Bytes :=
  (environment.file path).mapError (CommandError.ofFailure ("failed reading " ++ path))

def readStandardInput (environment : Environment) : Except CommandError Bytes :=
  environment.standardInput.mapError (CommandError.ofFailure "failed reading stdin")

end Environment

end Hopline.Command
