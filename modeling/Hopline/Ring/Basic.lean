import Hopline.Bus.Quiet
import Hopline.Schedule.Scheduler

/-! A ring of quiet devices. Each device hears what the one before it transmits, byte
by byte and in order, over a link that holds the bytes on their way. -/

namespace Hopline

/-- A message that reached a node: the device on which the node lives, and its handler. -/
structure Delivery where
  device : Nat
  handler : HandlerId
  frame : Frame
deriving DecidableEq, Inhabited

structure Ring (n : Nat) where
  buses : Vector Bus n
  /-- For each device the bytes that it has sent and the next one has not heard. -/
  links : Vector Bytes n
  deliveries : List Delivery
  moved : Nat

namespace Ring

/-- In a quiet ring no node ever leaves. -/
def everyone : HandlerId → Bool := fun _ => true

def next {n : Nat} (device : Fin n) : Fin n :=
  ⟨(device.val + 1) % n, Nat.mod_lt _ (Nat.zero_lt_of_lt device.isLt)⟩

def previous {n : Nat} (device : Fin n) : Fin n :=
  ⟨(device.val + (n - 1)) % n, Nat.mod_lt _ (Nat.zero_lt_of_lt device.isLt)⟩

def ofBuses {n : Nat} (buses : Vector Bus n) : Ring n :=
  { buses, links := Vector.replicate n [], deliveries := [], moved := 0 }

def bus {n : Nat} (ring : Ring n) (device : Fin n) : Bus := ring.buses[device]

def link {n : Nat} (ring : Ring n) (device : Fin n) : Bytes := ring.links[device]

def absorb {n : Nat} (ring : Ring n) (device : Fin n) (run : QuietRun) : Ring n :=
  { ring with
    buses := ring.buses.set device run.bus
    links := ring.links.set device (ring.link device ++ run.carried)
    deliveries := ring.deliveries ++ run.heard.map fun (handler, frame) => ⟨device.val, handler, frame⟩ }

def signal {n : Nat} (ring : Ring n) (device : Fin n) (message : Message) :
    Ring n × Except BusError Unit :=
  let run := (ring.bus device).signalQuietly everyone message
  (ring.absorb device run, run.result)

def hear {n : Nat} (ring : Ring n) (device : Fin n) (byte : UInt8) : Ring n :=
  let ring := ring.absorb device ((ring.bus device).ingestQuietly everyone byte)
  { ring with moved := ring.moved + 1 }

def transfer {n : Nat} (ring : Ring n) (sender : Fin n) : Ring n :=
  match ring.link sender with
  | [] => ring
  | byte :: rest => { ring with links := ring.links.set sender rest }.hear (next sender) byte

def pump {n : Nat} (device : Fin n) : (bound : Nat) → Ring n → Ring n
  | 0, ring => ring
  | bound + 1, ring =>
    if (ring.link (previous device)).isEmpty then ring
    else pump device bound (ring.transfer (previous device))

/-- How many bytes a device may be about to hear. Only a device that hears itself adds
to its own link, each time with a hop less. -/
def pumpBound {n : Nat} (ring : Ring n) (device : Fin n) : Nat :=
  256 * ((ring.link (previous device)).length + maxFrame)

instance {n : Nat} : Journal (Ring n) where
  note _ ring := ring

def listener {n : Nat} (device : Fin n) : Schedule.Module (Ring n) where
  name := "device-" ++ toString device.val
  period _ := 0
  init ring := (ring, true)
  poll ring := pump device (ring.pumpBound device) ring

def addListeners {n : Nat} (scheduler : Scheduler (Ring n)) :
    List (Fin n) → Except ScheduleError (Scheduler (Ring n))
  | [] => .ok scheduler
  | device :: rest =>
    match scheduler.add (listener device) with
    | (_, .error error) => .error error
    | (scheduler, .ok _) => addListeners scheduler rest

def scheduler (n : Nat) : Except ScheduleError (Scheduler (Ring n)) :=
  addListeners (Scheduler.empty n) (List.finRange n)

structure Settled (n : Nat) where
  ring : Ring n
  steps : Nat

/-- Steps a ring until a whole step moves nothing, at most `left` times. -/
def settleFrom {n : Nat} :
    (left : Nat) → (steps : Nat) → Scheduler (Ring n) → Ring n → Settled n
  | 0, steps, _, ring => { ring, steps }
  | left + 1, steps, scheduler, ring =>
    let pass := scheduler.step ring (UInt32.ofNat steps)
    if pass.world.moved = ring.moved then { ring := pass.world, steps := steps + 1 }
    else settleFrom left (steps + 1) pass.scheduler pass.world

def settle {n : Nat} (maxSteps : Nat) (scheduler : Scheduler (Ring n)) (ring : Ring n) :
    Settled n :=
  settleFrom maxSteps 0 scheduler ring

end Ring

end Hopline
