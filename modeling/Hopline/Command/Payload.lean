import Hopline.Command.Environment
import Hopline.Command.Options

/-! The payload of a message, which users give as text, as hexadecimal digits or as
the name of a file. -/

namespace Hopline.Command

open Text

inductive PayloadSource
  | absent
  | text (words : String)
  | hex (digits : String)
  | file (path : String)
deriving DecidableEq, Inhabited

namespace PayloadSource

/-- The options that give a payload; at most one of them may be used. -/
def options : List OptionSpec :=
  [valued "data" anyText, valued "hex" anyText, valued "file" pathText]

def exclusive : List (String × String) := [("data", "hex"), ("data", "file"), ("hex", "file")]

def ofReading (reading : Reading) : PayloadSource :=
  match reading.value? "data", reading.value? "hex", reading.value? "file" with
  | some words, _, _ => .text words
  | none, some digits, _ => .hex digits
  | none, none, some path => .file path
  | none, none, none => .absent

def wanted : PayloadSource → Wanted
  | .file path => .file path
  | _ => .nothing

def read (environment : Environment) : PayloadSource → Except CommandError Bytes
  | .absent => .ok []
  | .text words => .ok (utf8Bytes words)
  | .hex digits => readHex digits
  | .file path => environment.readFile path

end PayloadSource

end Hopline.Command
