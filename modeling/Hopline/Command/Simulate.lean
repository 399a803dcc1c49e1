import Hopline.Command.Payload
import Hopline.Command.Report
import Hopline.Ring.Basic

/-! The command that sends one message round a ring of devices with a node each. -/

namespace Hopline.Command

open Text

structure Simulation (n : Nat) where
  source : Fin n
  destination : Fin n
  /-- The address of the first node; the others follow it. -/
  baseAddress : Address
  ttl : UInt8
  sync : SyncPolicy
  maxSteps : Nat
  payload : Bytes
deriving DecidableEq

namespace Simulation

def defaultPayload : Bytes := utf8Bytes "hello"

def addressOf {n : Nat} (simulation : Simulation n) (device : Fin n) : Address :=
  simulation.baseAddress + UInt16.ofNat device.val

def config {n : Nat} (simulation : Simulation n) : BusConfig :=
  { BusConfig.standard with sync := simulation.sync }

/-- The bus of a device with its node, whose handler is known by the index of the device. -/
def bus {n : Nat} (simulation : Simulation n) (device : Fin n) : Bus :=
  let fresh := Bus.ofConfig simulation.config
  (fresh.register Ring.everyone (simulation.addressOf device) device.val).1

def ring {n : Nat} (simulation : Simulation n) : Ring n :=
  Ring.ofBuses (Vector.ofFn simulation.bus)

def message {n : Nat} (simulation : Simulation n) : Message :=
  { destination := simulation.addressOf simulation.destination
    source := simulation.addressOf simulation.source
    flags := Flags.none
    ttl := simulation.ttl
    payload := if simulation.payload.isEmpty then defaultPayload else simulation.payload }

def report {n : Nat} (simulation : Simulation n) (settled : Ring.Settled n) : SimulationReport :=
  let message := simulation.message
  { source := message.source
    destination := message.destination
    ttl := message.ttl
    delivered := settled.ring.deliveries.any fun delivery =>
      delivery.frame.destination == message.destination
    steps := settled.steps
    deliveries := settled.ring.deliveries
    devices := (List.finRange n).map fun device =>
      { device := device.val
        address := simulation.addressOf device
        stats := (settled.ring.bus device).stats } }

def run {n : Nat} (simulation : Simulation n) : Except CommandError SimulationReport := do
  let scheduler ← (Ring.scheduler n).mapError (CommandError.ofSchedule "simulation setup failed")
  let (ring, sent) := simulation.ring.signal simulation.source simulation.message
  sent.mapError (CommandError.ofBus "signal failed")
  return simulation.report (ring.settle simulation.maxSteps scheduler)

end Simulation

structure SimulatePlan where
  devices : Nat
  source : Nat
  /-- The last device unless one is named. -/
  destination : Option Nat
  baseAddress : Address
  ttl : UInt8
  sync : SyncPolicy
  maxSteps : Nat
  payload : PayloadSource
deriving DecidableEq, Inhabited

namespace SimulatePlan

def defaultDevices : Nat := 4

def defaultBaseAddress : Address := 0x0100

def defaultMaxSteps : Nat := 10000

def options : List OptionSpec :=
  [valued "devices" (numberFrom 1 64), valued "from" (numberFrom 0 0xFFFF),
    valued "to" (numberFrom 0 0xFFFF), valued "base-address" addressText, valued "ttl" ttlText,
    valued "sync" syncText, valued "max-steps" (numberFrom 0 0xFFFFFFFF)] ++ PayloadSource.options

def ofReading (reading : Reading) : SimulatePlan :=
  { devices := reading.getD "devices" (numberFrom 1 64) defaultDevices
    source := reading.getD "from" (numberFrom 0 0xFFFF) 0
    destination := reading.get? "to" (numberFrom 0 0xFFFF)
    baseAddress := reading.getD "base-address" addressText defaultBaseAddress
    ttl := reading.getD "ttl" ttlText defaultTtl
    sync := reading.getD "sync" syncText .headOnly
    maxSteps := reading.getD "max-steps" (numberFrom 0 0xFFFFFFFF) defaultMaxSteps
    payload := .ofReading reading }

def target (plan : SimulatePlan) : Nat := plan.destination.getD (plan.devices - 1)

/-- The simulation to be run. Both devices have to exist, and every node needs an
address; only then is the payload read. -/
def prepare (plan : SimulatePlan) (environment : Environment) :
    Except CommandError (Simulation plan.devices) :=
  if present : plan.source < plan.devices ∧ plan.target < plan.devices then
    if 0x10000 < plan.baseAddress.toNat + plan.devices then
      .error ⟨.usage, "device addresses overflow 0xffff"⟩
    else do
      let payload ← plan.payload.read environment
      return { source := ⟨plan.source, present.1⟩, destination := ⟨plan.target, present.2⟩,
               baseAddress := plan.baseAddress, ttl := plan.ttl, sync := plan.sync,
               maxSteps := plan.maxSteps, payload }
  else
    .error ⟨.usage, s!"device index out of range (ring has {plan.devices} devices)"⟩

/-- A message that did not arrive is a failure, and is reported all the same. -/
def outcome (report : SimulationReport) (format : OutputFormat) : Outcome :=
  { code := if report.delivered then .success else .failure
    output := report.print format }

def execute (plan : SimulatePlan) (environment : Environment) (format : OutputFormat) :
    Except CommandError Outcome := do
  let simulation ← plan.prepare environment
  return outcome (← simulation.run) format

end SimulatePlan

end Hopline.Command
