/-! Command lines. A grammar lists the options of a command; reading matches them with
what the user wrote, left to right. A value behind its option is checked only when the
next option, the next positional argument or the end comes, so which of two mistakes
is reported depends on where they stand. -/

namespace Hopline.Command

inductive ArgumentFault
  | helpWanted
  | versionWanted
  | nothingGiven
  | unknownCommand
  | missingCommand
  | unknownArgument
  | invalidValue
  | refusedValue
  | conflict
  | unwantedValue
  | missingArgument
deriving DecidableEq, Inhabited

/-- Asking for help or for the version is no failure. -/
def ArgumentFault.exitCode : ArgumentFault → Nat
  | .helpWanted | .versionWanted => 0
  | _ => 2

def ArgumentFault.message : ArgumentFault → String
  | .helpWanted => "help was asked for"
  | .versionWanted => "the version was asked for"
  | .nothingGiven | .missingCommand => "a command is missing"
  | .unknownCommand => "there is no such command"
  | .unknownArgument => "there is no such argument"
  | .invalidValue => "a value is missing or not one of those known"
  | .refusedValue => "a value is out of range or cannot be read"
  | .conflict => "two arguments exclude each other"
  | .unwantedValue => "a switch takes no value"
  | .missingArgument => "an argument is missing"

inductive OptionKind
  | switch
  /-- It takes one value; the check tells what is wrong with it. -/
  | value (check : String → Option ArgumentFault)
  | stop (fault : ArgumentFault)

structure OptionSpec where
  name : String
  letter : Option Char
  kind : OptionKind

structure Grammar where
  options : List OptionSpec
  positional : Option String
  required : List String
  exclusive : List (String × String)
  /-- Names of further commands; after one of them the rest is not this command's. -/
  commands : List String

structure Pending where
  name : String
  check : String → Option ArgumentFault
  value : Option String

structure Reading where
  found : List (String × String)
  pending : Option Pending
  /-- True while an option waits for its value. -/
  awaiting : Bool
  placed : Bool
  trailing : Bool

namespace Reading

def start : Reading :=
  { found := [], pending := none, awaiting := false, placed := false, trailing := false }

def value? (reading : Reading) (name : String) : Option String := reading.found.lookup name

/-- Enters an argument with its value, unless it has one already. -/
def enter (reading : Reading) (name value : String) (check : String → Option ArgumentFault) :
    Except ArgumentFault Reading :=
  if (reading.value? name).isSome then .error .conflict
  else match check value with
    | some fault => .error fault
    | none => .ok { reading with found := reading.found ++ [(name, value)] }

def resolve (reading : Reading) : Except ArgumentFault Reading :=
  match reading.pending with
  | none => .ok reading
  | some pending =>
    match pending.value with
    | none => .error .invalidValue
    | some value => { reading with pending := none }.enter pending.name value pending.check

def anyValue : String → Option ArgumentFault := fun _ => none

def takeOption (reading : Reading) (option : OptionSpec) (attached : Option String) :
    Except ArgumentFault Reading :=
  match option.kind, attached with
  | .value check, some value => do
    let reading ← reading.resolve
    { reading with awaiting := false }.enter option.name value check
  | .value check, none => do
    let reading ← reading.resolve
    return { reading with pending := some ⟨option.name, check, none⟩, awaiting := true }
  | _, some _ => .error .unwantedValue
  | .switch, none => do
    let reading ← reading.resolve
    { reading with awaiting := false }.enter option.name "true" anyValue
  | .stop fault, none => do
    let _ ← reading.resolve
    throw fault

def takeLetters (grammar : Grammar) (reading : Reading) : List Char → Except ArgumentFault Reading
  | [] => .ok reading
  | letter :: rest =>
    match grammar.options.find? fun option => option.letter == some letter with
    | none => .error .unknownArgument
    | some option => do
      let reading ← reading.takeOption option none
      takeLetters grammar reading rest

def splitLong (text : List Char) : String × Option String :=
  let name := text.takeWhile (· != '=')
  (String.ofList name,
    match text.drop name.length with
    | [] => none
    | _ :: value => some (String.ofList value))

def takePlain (grammar : Grammar) (reading : Reading) (argument : String) :
    Except ArgumentFault Reading :=
  match grammar.positional with
  | some name =>
    if reading.placed then .error .unknownArgument
    else do
      let reading ← reading.resolve
      return { reading with
        pending := some ⟨name, anyValue, some argument⟩
        placed := true }
  | none =>
    if grammar.commands.isEmpty then .error .unknownArgument
    else if reading.trailing && grammar.commands.contains argument then .error .unknownArgument
    else .error .unknownCommand

def takeArgument (grammar : Grammar) (reading : Reading) (argument : String) :
    Except ArgumentFault Reading :=
  if reading.trailing then reading.takePlain grammar argument
  else match argument.toList with
    | ['-', '-'] => .ok { reading with trailing := true }
    | '-' :: '-' :: text =>
      let (name, attached) := splitLong text
      match grammar.options.find? fun option => option.name == name with
      | none => .error .unknownArgument
      | some option => reading.takeOption option attached
    | '-' :: letter :: letters => takeLetters grammar reading (letter :: letters)
    | _ =>
      if reading.awaiting then
        .ok { reading with
          awaiting := false
          pending := reading.pending.map fun pending => { pending with value := some argument } }
      else reading.takePlain grammar argument

def validate (grammar : Grammar) (reading : Reading) : Except ArgumentFault Reading :=
  let given (name : String) : Bool := (reading.value? name).isSome
  if grammar.exclusive.any fun (one, other) => given one && given other then .error .conflict
  else if grammar.required.all given then .ok reading
  else .error .missingArgument

end Reading

def Grammar.read (grammar : Grammar) (arguments : List String) : Except ArgumentFault Reading := do
  let reading ← arguments.foldlM (fun reading argument => reading.takeArgument grammar argument)
    Reading.start
  let reading ← reading.resolve
  reading.validate grammar

structure Chosen where
  name : String
  arguments : List String
deriving DecidableEq, Inhabited

def Grammar.readUntilCommand (grammar : Grammar) (reading : Reading) :
    List String → Except ArgumentFault (Reading × Option Chosen)
  | [] => .ok (reading, none)
  | argument :: rest =>
    if !reading.trailing && !reading.awaiting && grammar.commands.contains argument then
      .ok (reading, some ⟨argument, rest⟩)
    else do
      let reading ← reading.takeArgument grammar argument
      grammar.readUntilCommand reading rest

end Hopline.Command
