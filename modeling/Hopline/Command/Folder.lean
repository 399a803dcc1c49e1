import Hopline.Command.Environment

/-! A folder that holds files and no further folders, and how the paths of its files
are resolved, step by step from the left. -/

namespace Hopline.Command

structure Folder where
  files : List (String × Bytes)
deriving DecidableEq, Inhabited

namespace Folder

inductive Place
  | inside
  /-- Into some folder above it, of which nothing else is known. -/
  | outside
  | file (content : Bytes)
deriving DecidableEq, Inhabited

def maxName : Nat := 255

def maxPath : Nat := 4095

/-- Follows one step of a path. Nothing lies below a file, not even the file. -/
def follow (folder : Folder) (place : Place) (step : String) : Except Failure Place :=
  match place with
  | .file _ => .error FileFailure.noDirectory
  | .inside =>
    if step = "" ∨ step = "." then .ok .inside
    else if step = ".." then .ok .outside
    else if maxName < step.utf8ByteSize then .error FileFailure.tooLong
    else match folder.files.lookup step with
      | some content => .ok (.file content)
      | none => .error FileFailure.missing
  | .outside =>
    if step = "" ∨ step = "." ∨ step = ".." then .ok .outside
    else if maxName < step.utf8ByteSize then .error FileFailure.tooLong
    else .error FileFailure.missing

/-- Where a path starts: one that begins with a slash at the top, any other one here. -/
def start (path : String) : Place := if path.startsWith "/" then .outside else .inside

def read (folder : Folder) (path : String) : Except Failure Bytes :=
  if path.contains '\x00' then .error FileFailure.zeroByte
  else if path = "" then .error FileFailure.missing
  else if maxPath < path.utf8ByteSize then .error FileFailure.tooLong
  else do
    match ← (path.splitOn "/").foldlM folder.follow (start path) with
    | .file content => return content
    | .inside | .outside => throw FileFailure.directory

end Folder

def Environment.ofFolder (folder : Folder) (standardInput : Bytes) : Environment :=
  { standardInput := .ok standardInput, file := folder.read }

end Hopline.Command
