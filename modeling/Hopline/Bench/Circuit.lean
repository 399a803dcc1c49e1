import Hopline.Bench.Basic

/-! Benches in a ring: each device hears what the line of the one before it took, when
the scheduler polls its link. -/

namespace Hopline.Bench

structure NodeSetup where
  address : Address
  reaction : Reaction
  limit : Nat
deriving Inhabited

structure DeviceSetup where
  config : BusConfig
  nodes : List NodeSetup
  period : UInt32
deriving Inhabited

def previous (bench : Bench) (device : Nat) : Nat :=
  (device + (bench.devices.length - 1)) % bench.devices.length

def moveAll (bench : Bench) (device : Nat) (bytes : Bytes) : Bench :=
  let (bench, _) := bench.takeWire (bench.previous device)
  let counted :=
    { bench with
      devices := bench.devices.modify device fun old =>
        { old with moved := old.moved + bytes.length } }
  counted.ingest device bytes

def pollLink (device : Nat) : (goes : Nat) → Bench → Bench
  | 0, bench => bench
  | goes + 1, bench =>
    match bench.devices[bench.previous device]? with
    | none => bench
    | some source =>
      match source.wire.capture.bytes with
      | [] => bench
      | bytes => pollLink device goes (bench.moveAll device bytes)

/-- Goes that are enough for `pollLink`. Only a device that hears itself needs more than
one: what it sends comes back with a hop less. -/
def goesNeeded (bench : Bench) : Nat :=
  let waiting := totalCost (fun device => device.wire.capture.bytes.length) bench.devices
  256 * (bench.stepsNeeded + waiting + 2)

def link (device : Nat) (period : UInt32) : Schedule.Module Bench where
  name := "link-" ++ toString device
  period _ := period
  init bench := (bench, true)
  poll bench := pollLink device bench.goesNeeded bench

structure Circuit where
  bench : Bench
  scheduler : Scheduler Bench

namespace Circuit

def empty : Circuit := { bench := Bench.empty, scheduler := Scheduler.empty defaultMaxModules }

def add (circuit : Circuit) (setup : DeviceSetup) : Circuit × Except ScheduleError Unit :=
  let device := circuit.bench.devices.length
  let bench := circuit.bench.addDevice (Bus.ofConfig setup.config) [] []
  let bench := setup.nodes.foldl
    (fun bench node => (bench.addNode device node.address node.reaction node.limit).1) bench
  match circuit.scheduler.add (link device setup.period) with
  | (_, .error error) => ({ circuit with bench }, .error error)
  | (scheduler, .ok id) =>
    ({ bench := Journal.note (.moduleAdded (scheduler.nameOf id) id) bench, scheduler }, .ok ())

/-- Adds devices in order, up to the first that the scheduler has no room for. -/
def addAll (circuit : Circuit) : List DeviceSetup → Circuit × Except ScheduleError Unit
  | [] => (circuit, .ok ())
  | setup :: rest =>
    match circuit.add setup with
    | (circuit, .ok ()) => circuit.addAll rest
    | (circuit, .error error) => (circuit, .error error)

def step (circuit : Circuit) (ticks : UInt32) : Circuit :=
  let pass := circuit.scheduler.step circuit.bench ticks
  { bench := pass.world, scheduler := pass.scheduler }

def addNoise (circuit : Circuit) (device : Nat) (bytes : Bytes) : Circuit :=
  { circuit with
    bench := bytes.foldl
      (fun bench byte =>
        { bench with
          devices := bench.devices.modify device fun old =>
            { old with wire := { old.wire with capture := old.wire.capture.record byte } } })
      circuit.bench }

end Circuit

end Hopline.Bench
