import Hopline.Event
import Hopline.Schedule.Graph
import Hopline.Text.Quoted
import Hopline.Text.Record

/-! A cooperative scheduler. Modules come up in dependency order, each tried once per
step until it reports ready, and are polled once per step when their period has
elapsed. Modules act on a shared world, which the scheduler only passes on. -/

namespace Hopline

class Journal (σ : Type) where
  note : Event → σ → σ

namespace Schedule

structure Module (σ : Type) where
  name : String
  /-- Ticks between calls; zero means every step. -/
  period : σ → UInt32
  init : σ → σ × Bool
  poll : σ → σ

structure Slot (σ : Type) where
  unit : Module σ
  ready : Bool
  lastInit : Option UInt32
  lastPoll : Option UInt32

inductive Activity
  | init (id : ModuleId) (ready : Bool)
  | poll (id : ModuleId)
deriving DecidableEq, Inhabited

structure ModuleStatus where
  id : ModuleId
  name : String
  ready : Bool
  period : UInt32
deriving DecidableEq, Inhabited

end Schedule

def defaultMaxModules : Nat := 32

open Schedule

/-- Modules in the order of their addition. `dependencies` lists for each module
those that have to be ready before it is brought up. -/
structure Scheduler (σ : Type) where
  slots : List (Slot σ)
  dependencies : Graph
  maxModules : Nat

namespace Scheduler

variable {σ : Type}

def empty (maxModules : Nat) : Scheduler σ := { slots := [], dependencies := [], maxModules }

def length (scheduler : Scheduler σ) : Nat := scheduler.slots.length

def isEmpty (scheduler : Scheduler σ) : Bool := scheduler.slots.isEmpty

def add (scheduler : Scheduler σ) (unit : Module σ) :
    Scheduler σ × Except ScheduleError ModuleId :=
  if scheduler.maxModules ≤ scheduler.slots.length then
    (scheduler, .error (.tooManyModules scheduler.maxModules))
  else
    ({ scheduler with
        slots := scheduler.slots ++ [{ unit, ready := false, lastInit := none, lastPoll := none }]
        dependencies := scheduler.dependencies ++ [[]] },
      .ok scheduler.slots.length)

def nameOf (scheduler : Scheduler σ) (id : ModuleId) : String :=
  (scheduler.slots[id]?.map fun slot => slot.unit.name).getD ""

/-- Lets `source` wait for `target`. A dependency that is there already changes nothing.
A new one is put in first and taken out again if it has closed a cycle. -/
def depend (scheduler : Scheduler σ) (source target : ModuleId) :
    Scheduler σ × Except ScheduleError Unit :=
  if scheduler.slots.length ≤ source then (scheduler, .error (.unknownModule source))
  else if scheduler.slots.length ≤ target then (scheduler, .error (.unknownModule target))
  else if (scheduler.dependencies.successors source).contains target then (scheduler, .ok ())
  else
    let dependencies := scheduler.dependencies.addEdge source target
    if dependencies.hasCycle then
      ({ scheduler with dependencies := dependencies.dropEdge source },
        .error (.cyclicDependency (scheduler.nameOf source) (scheduler.nameOf target)))
    else ({ scheduler with dependencies }, .ok ())

def isReady (scheduler : Scheduler σ) (id : ModuleId) : Bool :=
  (scheduler.slots[id]?.map Slot.ready).getD false

def ready? (scheduler : Scheduler σ) (id : ModuleId) : Except ScheduleError Bool :=
  match scheduler.slots[id]? with
  | some slot => .ok slot.ready
  | none => .error (.unknownModule id)

/-- True if at least `period` ticks have gone by since `last`. Ticks wrap. -/
def due (last : Option UInt32) (now period : UInt32) : Bool :=
  match last with
  | none => true
  | some last => period ≤ now - last

structure Pass (σ : Type) where
  scheduler : Scheduler σ
  world : σ
  visited : List ModuleId
  activity : List Activity

def Pass.start [Journal σ] (pass : Pass σ) (ticks : UInt32) (id : ModuleId) : Pass σ :=
  match pass.scheduler.slots[id]? with
  | none => pass
  | some slot =>
    if due slot.lastInit ticks (slot.unit.period pass.world) then
      let (world, ready) := slot.unit.init pass.world
      let slots := pass.scheduler.slots.set id { slot with ready, lastInit := some ticks }
      { pass with
        scheduler := { pass.scheduler with slots }
        world := if ready then Journal.note (.moduleReady slot.unit.name) world else world
        activity := pass.activity ++ [.init id ready] }
    else pass

mutual

/-- Brings a module up after its dependencies, unless one of them is not ready. The
depth bounds the search: each level visits a module for the first time. -/
def Pass.bringUp [Journal σ] (ticks : UInt32) (depth : Nat) (id : ModuleId) (pass : Pass σ) :
    Pass σ :=
  match depth with
  | 0 => pass
  | depth + 1 =>
    if pass.visited.contains id then pass
    else
      let pass := { pass with visited := id :: pass.visited }
      if pass.scheduler.isReady id then pass
      else
        let needed := pass.scheduler.dependencies.successors id
        let pass := Pass.bringUpAll ticks depth needed pass
        if needed.all pass.scheduler.isReady then pass.start ticks id else pass

def Pass.bringUpAll [Journal σ] (ticks : UInt32) (depth : Nat) :
    List ModuleId → Pass σ → Pass σ
  | [], pass => pass
  | id :: rest, pass => Pass.bringUpAll ticks depth rest (Pass.bringUp ticks depth id pass)

end

def Pass.pollDue (ticks : UInt32) (id : ModuleId) (pass : Pass σ) : Pass σ :=
  match pass.scheduler.slots[id]? with
  | none => pass
  | some slot =>
    if slot.ready && due slot.lastPoll ticks (slot.unit.period pass.world) then
      let slots := pass.scheduler.slots.set id { slot with lastPoll := some ticks }
      { pass with
        scheduler := { pass.scheduler with slots }
        world := slot.unit.poll pass.world
        activity := pass.activity ++ [.poll id] }
    else pass

/-- A step seen up to the given modules: each is brought up, then polled. -/
def Pass.through [Journal σ] (ticks : UInt32) (depth : Nat) (ids : List ModuleId)
    (pass : Pass σ) : Pass σ :=
  ids.foldl (fun pass id => (Pass.bringUp ticks depth id pass).pollDue ticks id) pass

def step [Journal σ] (scheduler : Scheduler σ) (world : σ) (ticks : UInt32) : Pass σ :=
  Pass.through ticks scheduler.slots.length (List.range scheduler.slots.length)
    { scheduler, world, visited := [], activity := [] }

def status (scheduler : Scheduler σ) (world : σ) : List ModuleStatus :=
  scheduler.slots.zipIdx.map fun (slot, id) =>
    { id, name := slot.unit.name, ready := slot.ready, period := slot.unit.period world }

def describe (scheduler : Scheduler σ) (world : σ) : String :=
  let shown (status : ModuleStatus) :=
    Text.record "ModuleStatus"
      [⟨"id", "ModuleId(" ++ toString status.id ++ ")"⟩, ⟨"name", Text.quoted status.name⟩,
        ⟨"ready", Text.truth status.ready⟩, ⟨"period", toString status.period.toNat⟩] false
  Text.record "Scheduler"
    [⟨"modules", Text.sequence ((scheduler.status world).map shown)⟩,
      ⟨"dependencies",
        Text.sequence (scheduler.dependencies.map fun ids => Text.sequence (ids.map toString))⟩]
    false

end Scheduler

end Hopline
