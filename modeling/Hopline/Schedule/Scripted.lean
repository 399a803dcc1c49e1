import Hopline.Schedule.Scheduler

/-! Modules that act by script: what they answer when brought up is known in advance,
and they keep a log of the calls that they get. -/

namespace Hopline.Schedule

/-- The script of one module. One without a name is ready at once, has no period, and
logs nothing. -/
structure Part where
  name : Option String
  period : UInt32
  answers : List Bool
deriving DecidableEq, Inhabited

structure Rehearsal where
  parts : List Part
  log : List String
  events : List Event
deriving DecidableEq, Inhabited

instance : Journal Rehearsal where
  note event world := { world with events := world.events ++ [event] }

namespace Rehearsal

def empty : Rehearsal := { parts := [], log := [], events := [] }

def logged (world : Rehearsal) (part : Part) (entry : String → String) : Rehearsal :=
  match part.name with
  | some name => { world with log := world.log ++ [entry name] }
  | none => world

def answer (part : Part) : Part × Bool :=
  match part.answers with
  | [] => (part, true)
  | answer :: rest => ({ part with answers := rest }, answer)

def bringUp (id : ModuleId) (world : Rehearsal) : Rehearsal × Bool :=
  match world.parts[id]? with
  | none => (world, true)
  | some part =>
    let (after, answer) := answer part
    let world := { world with parts := world.parts.set id after }
    (world.logged part fun name => "init " ++ name ++ " " ++ Text.truth answer, answer)

def pollPart (id : ModuleId) (world : Rehearsal) : Rehearsal :=
  match world.parts[id]? with
  | none => world
  | some part => world.logged part fun name => "poll " ++ name

def unit (id : ModuleId) (name : Option String) : Module Rehearsal where
  name := name.getD "bare"
  period world := (world.parts[id]?.map Part.period).getD 0
  init := bringUp id
  poll := pollPart id

def add (scheduler : Scheduler Rehearsal) (world : Rehearsal) (part : Part) :
    Except ScheduleError (Scheduler Rehearsal × Rehearsal × ModuleId) :=
  match scheduler.add (unit world.parts.length part.name) with
  | (_, .error error) => .error error
  | (scheduler, .ok id) =>
    let world := { world with parts := world.parts ++ [part] }
    .ok (scheduler, Journal.note (.moduleAdded (scheduler.nameOf id) id) world, id)

def depend (scheduler : Scheduler Rehearsal) (world : Rehearsal) (source target : ModuleId) :
    Scheduler Rehearsal × Rehearsal × Except ScheduleError Unit :=
  match scheduler.depend source target with
  | (scheduler, .ok ()) => (scheduler, world, .ok ())
  | (scheduler, .error error) =>
    let world := match error with
      | .cyclicDependency .. => Journal.note (.dependencyRejected error) world
      | _ => world
    (scheduler, world, .error error)

def setPeriod (world : Rehearsal) (id : ModuleId) (period : UInt32) : Rehearsal :=
  let changed (part : Part) : Part := if part.name.isSome then { part with period } else part
  { world with parts := world.parts.modify id changed }

end Rehearsal

end Hopline.Schedule
