import Hopline.Command.Invocation

/-! The short help: one line for each command and its options. -/

namespace Hopline.Command

def OptionSpec.usage (option : OptionSpec) : String :=
  match option.kind with
  | .value _ => "[--" ++ option.name ++ " VALUE]"
  | .switch | .stop _ => "[--" ++ option.name ++ "]"

def Invocation.CommandSpec.usage (command : Invocation.CommandSpec) : String :=
  String.intercalate " "
    (" " :: command.name :: (command.grammar.options.map OptionSpec.usage
      ++ (command.grammar.positional.map fun name => "[" ++ name ++ "]").toList))

def usageLines : List String :=
  "usage: chainbus [options] command [options]"
    :: Invocation.commands.map Invocation.CommandSpec.usage

/-- What is printed where nothing is to be run, and whether it goes to those who asked. -/
def ArgumentFault.notice : ArgumentFault → List String
  | .helpWanted => usageLines
  | .versionWanted => [versionLine]
  | .nothingGiven => usageLines
  | fault => ["error: " ++ fault.message]

end Hopline.Command
