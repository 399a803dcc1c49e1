import Hopline.Command.Decode
import Hopline.Command.Encode
import Hopline.Command.Simulate

/-! The program as a whole: which command a line of arguments asks for, and what comes
of it. -/

namespace Hopline.Command

inductive Plan
  | encode (plan : EncodePlan)
  | decode (plan : DecodePlan)
  | simulate (plan : SimulatePlan)
  | version (extended : Bool)
deriving Inhabited

def Plan.wanted : Plan → Wanted
  | .encode plan => plan.payload.wanted
  | .decode plan => plan.stream.wanted
  | .simulate plan => plan.payload.wanted
  | .version _ => .nothing

structure Invocation where
  plan : Plan
  format : Option OutputFormat
deriving Inhabited

namespace Invocation

def formatText : ValueReader OutputFormat :=
  oneOf [("json", .json), ("table", .table), ("pretty", .pretty), ("raw", .raw)]

def wordOf (words : List String) : ValueReader Unit := oneOf (words.map fun word => (word, ()))

def globalOptions : List OptionSpec :=
  [valued "format" formatText, valued "log-format" (wordOf ["text", "json"]),
    valued "log-level" (wordOf ["error", "warn", "info", "debug", "trace"])]

structure CommandSpec where
  name : String
  grammar : Grammar
  plan : Reading → Plan

def grammarOf (options : List OptionSpec) (positional : Option String) (required : List String)
    (exclusive : List (String × String)) : Grammar :=
  { options := options ++ globalOptions ++ [helpOption], positional, required, exclusive,
    commands := [] }

def commands : List CommandSpec :=
  [{ name := "encode"
     grammar := grammarOf EncodePlan.options none ["dst"] PayloadSource.exclusive
     plan := fun reading => .encode (.ofReading reading) },
   { name := "decode"
     grammar := grammarOf DecodePlan.options (some DecodePlan.positional) []
       [(DecodePlan.positional, "file")]
     plan := fun reading => .decode (.ofReading reading) },
   { name := "simulate"
     grammar := grammarOf SimulatePlan.options none [] PayloadSource.exclusive
     plan := fun reading => .simulate (.ofReading reading) },
   { name := "version"
     grammar := grammarOf [switch "extended"] none [] []
     plan := fun reading => .version (reading.has "extended") }]

def helpName : String := "help"

def commandNames : List String := commands.map CommandSpec.name ++ [helpName]

def grammar : Grammar :=
  { options := globalOptions ++ [helpOption, versionOption], positional := none, required := [],
    exclusive := [], commands := commandNames }

def helpFault : List String → ArgumentFault
  | [] => .helpWanted
  | [name] => if commandNames.contains name then .helpWanted else .unknownCommand
  | _ => .unknownCommand

/-- Reads a line of arguments. What is wrong behind the name of a command is reported
before the last option in front of it. -/
def ofArguments (arguments : List String) : Except ArgumentFault Invocation := do
  let (reading, chosen) ← grammar.readUntilCommand Reading.start arguments
  match chosen with
  | none =>
    let reading ← reading.resolve
    throw (if reading.found.isEmpty then .nothingGiven else .missingCommand)
  | some chosen =>
    match commands.find? fun command => command.name == chosen.name with
    | none => throw (helpFault chosen.arguments)
    | some command =>
      let inner ← command.grammar.read chosen.arguments
      let outer ← reading.resolve
      return { plan := command.plan inner
               format := (inner.get? "format" formatText).or (outer.get? "format" formatText) }

end Invocation

def versionLine : String := "chainbus 0.1.0"

def versionLines (extended : Bool) : List String :=
  if extended then
    ["name: chainbus", "version: 0.1.0",
      "frame: header=" ++ toString headerSize ++ " trailer=" ++ toString trailerSize
        ++ " max_payload=" ++ toString maxPayload]
  else [versionLine]

def Plan.execute (plan : Plan) (environment : Environment) (format : OutputFormat) :
    Except CommandError Outcome :=
  match plan with
  | .encode plan => plan.execute environment format
  | .decode plan => plan.execute environment format
  | .simulate plan => plan.execute environment format
  | .version extended => .ok { code := .success, output := lines (versionLines extended) }

/-- The form of output that nobody chose: for people on a terminal, else for programs. -/
def OutputFormat.usual (terminal : Bool) : OutputFormat := if terminal then .table else .json

def Invocation.execute (invocation : Invocation) (environment : Environment) (terminal : Bool) :
    Except CommandError Outcome :=
  invocation.plan.execute environment (invocation.format.getD (OutputFormat.usual terminal))

end Hopline.Command
