/-! Why a scheduler could not be assembled as asked. -/

namespace Hopline

/-- A module of a scheduler, by its place in the order of addition. -/
abbrev ModuleId := Nat

def ModuleId.label (id : ModuleId) : String := "#" ++ toString id

inductive ScheduleError
  | unknownModule (id : ModuleId)
  | cyclicDependency (source target : String)
  | tooManyModules (max : Nat)
deriving DecidableEq, Inhabited

def ScheduleError.message : ScheduleError → String
  | .unknownModule id => "unknown module " ++ ModuleId.label id
  | .cyclicDependency source target => s!"dependency {source} -> {target} would create a cycle"
  | .tooManyModules max => s!"too many modules (max {max})"

end Hopline
