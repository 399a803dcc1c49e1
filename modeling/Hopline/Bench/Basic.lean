import Hopline.Bench.Node
import Hopline.Schedule.Scheduler

/-! The test bench. It runs calls one inside the other: what a handler or an
interruption does comes before the call that waits for it goes on. The tasks of the
bench are that nesting, innermost first, and every bus call on it advances by the
turns of `Bus.advance` and by nothing else. -/

namespace Hopline

open Bench

inductive Bench.Report
  | nowhere
  | answer
  | reaction (node : NodeId)
  | interruption (call : Nat)
deriving DecidableEq, Inhabited

inductive Bench.Task
  | send (device : Nat) (message : Message) (report : Report)
  | run (device : Nat) (call : Call) (report : Report)
  | transmit (device : Nat) (call : Call) (report : Report)
  | feed (device : Nat) (bytes : Bytes) (report : Report)
  | handle (node : NodeId) (frame : Frame)
  | leave (node : NodeId)
  | interrupt (device : Nat) (call : Nat) (interruption : Interruption)
deriving Inhabited

structure Bench where
  devices : List Device
  nodes : List Node
  /-- The node on whose behalf a message is being sent; it cannot be taken away. -/
  speaker : Option NodeId
  tasks : List Task
  log : Array Entry
  events : Array Event
  answer : Option Reply
deriving Inhabited

instance : Journal Bench where
  note event bench := { bench with events := bench.events.push event }

namespace Bench

def empty : Bench :=
  { devices := [], nodes := [], speaker := none, tasks := [], log := #[], events := #[],
    answer := none }

def alive (bench : Bench) (handler : HandlerId) : Bool :=
  (bench.nodes[handler]?.map Node.alive).getD false

def note (bench : Bench) (events : List Event) : Bench :=
  { bench with events := bench.events ++ events }

def setBus (bench : Bench) (device : Nat) (bus : Bus) : Bench :=
  { bench with devices := bench.devices.modify device fun old => { old with bus } }

def setWire (bench : Bench) (device : Nat) (wire : FaultyLine) : Bench :=
  { bench with devices := bench.devices.modify device fun old => { old with wire } }

def schedule (bench : Bench) (tasks : List Task) : Bench :=
  { bench with tasks := tasks ++ bench.tasks }

def conclude (bench : Bench) (report : Report) (reply : Reply) : Bench :=
  match report with
  | .nowhere => bench
  | .answer => { bench with answer := some reply }
  | .reaction node => { bench with log := bench.log.push (.reacted node reply) }
  | .interruption call => { bench with log := bench.log.push (.interrupted call reply) }

def addDevice (bench : Bench) (bus : Bus) (failures : List (Nat × LineError))
    (interruptions : List (Nat × Interruption)) : Bench :=
  { bench with
    devices := bench.devices ++
      [{ bus, wire := FaultyLine.ofFailures failures, interruptions, moved := 0 }] }

def register (bench : Bench) (device : Nat) (address : Address) (handler : HandlerId) : Bench :=
  match bench.devices[device]? with
  | none => bench
  | some found =>
    let (bus, events) := found.bus.register bench.alive address handler
    (bench.setBus device bus).note events

def addNode (bench : Bench) (device : Nat) (address : Address) (reaction : Reaction)
    (limit : Nat) : Bench × NodeId :=
  let id := bench.nodes.length
  let node : Node :=
    { device, address, reaction, limit, acted := 0, attached := true, running := 0 }
  ({ bench with nodes := bench.nodes ++ [node] }.register device address id, id)

def node? (bench : Bench) (id : NodeId) : Option Node := bench.nodes[id]?.filter Node.attached

/-- Takes a node away, unless it is gone or just sending. -/
def detach (bench : Bench) (id : NodeId) : Bench × Bool :=
  if (bench.node? id).isNone || bench.speaker == some id then (bench, false)
  else
    ({ bench with nodes := bench.nodes.modify id fun node => { node with attached := false } },
      true)

def addAddress (bench : Bench) (id : NodeId) (address : Address) : Bench × Bool :=
  match bench.node? id with
  | none => (bench, false)
  | some node => (bench.register node.device address id, true)

def react (bench : Bench) (id : NodeId) (node : Node) (frame : Frame) : Bench :=
  if node.limit ≤ node.acted ∨ node.reaction = .record then bench
  else
    let bench :=
      { bench with
        nodes := bench.nodes.modify id fun node => { node with acted := node.acted + 1 } }
    match node.reaction with
    | .record => bench
    | .reply payload ttl flags =>
      bench.schedule [.send node.device
        { destination := frame.source, source := frame.destination, flags, ttl, payload }
        (.reaction id)]
    | .relay onward =>
      bench.schedule [.send node.device
        { frame.toMessage with
          destination := onward, source := frame.destination,
          ttl := if frame.ttl = 0 then 0 else frame.ttl - 1 }
        (.reaction id)]
    | .feed bytes => bench.schedule [.feed node.device bytes (.reaction id)]
    | .detach target =>
      let (bench, found) := bench.detach target
      bench.conclude (.reaction id) (.detached found)
    | .attach address =>
      let (bench, added) := bench.addNode node.device address .record 0
      bench.conclude (.reaction id) (.attached added)

/-- Carries an interruption out. A drain that it asks for sends to a line that nobody
listens to. -/
def interrupt (bench : Bench) (device call : Nat) (found : Device) : Interruption → Bench
  | .signal message => bench.schedule [.send device message (.interruption call)]
  | .ingest bytes => bench.schedule [.feed device bytes (.interruption call)]
  | .queue request =>
    let served := found.bus.queue.serve Capture.empty request
    ((bench.setBus device { found.bus with queue := served.queue }).note served.events).conclude
      (.interruption call) (.queue served.reply)

/-- Lets a handler begin: it stays alive until it returns. -/
def enter (bench : Bench) (id : NodeId) (frame : Frame) : Bench :=
  { bench with
    nodes := bench.nodes.modify id fun node => { node with running := node.running + 1 } }.schedule
    [.handle id frame, .leave id]

def perform (bench : Bench) : Task → Bench
  | .send device message report =>
    match Call.signal message with
    | .ok call => bench.schedule [.run device call report]
    | .error error => bench.conclude report (.failed error)
  | .run device call report =>
    match bench.devices[device]? with
    | none => bench
    | some found =>
      match call with
      | .returned result => bench.conclude report (.ofResult result)
      | .handling _ frame handler =>
        (bench.schedule [.run device call.afterHandler report]).enter handler frame
      | .sending .. =>
        let index := found.wire.attempts
        let striking := found.interruptions.filter fun (call, _) => call == index
        bench.schedule
          (striking.map (fun (call, interruption) => .interrupt device call interruption)
            ++ [.transmit device call report])
      | call =>
        match found.bus.advance bench.alive call with
        | none => bench
        | some turn =>
          ((bench.setBus device turn.bus).note turn.events).schedule [.run device turn.call report]
  | .transmit device call report =>
    match bench.devices[device]?, call with
    | some found, .sending _ _ _ byte =>
      let (wire, answer) := found.wire.transmit byte
      (bench.setWire device wire).schedule [.run device (call.afterLine answer) report]
    | _, _ => bench
  | .feed _ [] report => bench.conclude report .done
  | .feed device (byte :: rest) report =>
    bench.schedule [.run device (Call.ingest byte) .nowhere, .feed device rest report]
  | .handle id frame =>
    match bench.nodes[id]? with
    | none => bench
    | some node => { bench with log := bench.log.push (.heard id frame) }.react id node frame
  | .leave id =>
    { bench with
      nodes := bench.nodes.modify id fun node => { node with running := node.running - 1 } }
  | .interrupt device call interruption =>
    match bench.devices[device]? with
    | none => bench
    | some found => bench.interrupt device call found interruption

def proceed : (steps : Nat) → Bench → Bench
  | 0, bench => bench
  | steps + 1, bench =>
    match bench.tasks with
    | [] => bench
    | task :: rest => proceed steps ({ bench with tasks := rest }.perform task)

/-- Steps that are enough for one call: a few of its own and three for each byte of a
frame of full size. -/
def callCost : Nat := 3 * maxFrame + 43

def feedCost (count : Nat) : Nat := (callCost + 2) * count + 4

def Reaction.cost : Reaction → Nat
  | .reply .. | .relay .. => callCost + 4
  | .feed bytes => feedCost bytes.length
  | .record | .detach .. | .attach .. => 4

def Interruption.cost : Interruption → Nat
  | .signal .. => callCost + 4
  | .ingest bytes => feedCost bytes.length
  | .queue .. => callCost

def Task.cost : Task → Nat
  | .send .. | .run .. | .transmit .. => callCost + 1
  | .feed _ bytes _ => feedCost bytes.length
  | .handle .. | .leave .. => 4
  | .interrupt _ _ interruption => interruption.cost + 1

def totalCost {α : Type} (cost : α → Nat) (things : List α) : Nat :=
  things.foldl (fun total thing => total + cost thing) 0

def Device.cost (device : Device) : Nat :=
  4 * device.bus.queue.length
    + totalCost (fun (_, interruption) => interruption.cost + 1)
        (device.interruptions.filter fun (call, _) => device.wire.attempts ≤ call)

def Node.cost (node : Node) : Nat := (node.limit - node.acted) * node.reaction.cost

def stepsNeeded (bench : Bench) : Nat :=
  totalCost Task.cost bench.tasks + totalCost Device.cost bench.devices
    + totalCost Node.cost bench.nodes

def finish (bench : Bench) : Bench := proceed bench.stepsNeeded bench

def execute (bench : Bench) (tasks : List Task) : Bench := (bench.schedule tasks).finish

def signal (bench : Bench) (device : Nat) (message : Message) : Bench × Reply :=
  let bench := { bench with answer := none }.execute [.send device message .answer]
  (bench, bench.answer.getD .done)

/-- Sends a message on behalf of a node, which stays in place meanwhile. Nothing
happens if there is no such node. -/
def signalFrom (bench : Bench) (id : NodeId) (destination : Address) (payload : Bytes)
    (flags : Flags) (ttl : Option UInt8) : Bench × Option Reply :=
  match bench.node? id with
  | none => (bench, none)
  | some node =>
    let usual := (bench.devices[node.device]?.map fun device => device.bus.config.defaultTtl).getD 0
    let message : Message :=
      { destination, source := node.address, flags, ttl := ttl.getD usual, payload }
    let (bench, reply) := { bench with speaker := some id }.signal node.device message
    ({ bench with speaker := none }, some reply)

def ingest (bench : Bench) (device : Nat) (bytes : Bytes) : Bench :=
  bench.execute [.feed device bytes .nowhere]

def receive (bench : Bench) (device : Nat) (frame : Frame) : Bench :=
  bench.execute [.run device (Call.receive frame) .nowhere]

def poke (bench : Bench) (device : Nat) (address : Address) : Bench × Bool :=
  match bench.devices[device]? with
  | none => (bench, false)
  | some found =>
    match found.bus.registry.resolve bench.alive address with
    | none => (bench, false)
    | some handler =>
      let frame : Frame :=
        { destination := address, source := 0, flags := Flags.none, ttl := 1, payload := [],
          payload_le := Nat.zero_le _ }
      ((bench.enter handler frame).finish, true)

/-- Asks something of a device's transmit queue. A drain sends to a line of its own,
which is handed out. -/
def ask (bench : Bench) (device : Nat) (request : QueueRequest) : Bench × QueueReply × Capture :=
  match bench.devices[device]? with
  | none => (bench, .dropped 0, Capture.empty)
  | some found =>
    let served := found.bus.queue.serve Capture.empty request
    ((bench.setBus device { found.bus with queue := served.queue }).note served.events,
      served.reply, served.line)

def resetWindow (bench : Bench) (device : Nat) : Bench :=
  match bench.devices[device]? with
  | none => bench
  | some found =>
    let (bus, events) := found.bus.resetWindow
    (bench.setBus device bus).note events

def takeWire (bench : Bench) (device : Nat) : Bench × Capture :=
  match bench.devices[device]? with
  | none => (bench, Capture.empty)
  | some found =>
    let (wire, capture) := found.wire.take
    (bench.setWire device wire, capture)

def takeLog (bench : Bench) : Bench × List Entry := ({ bench with log := #[] }, bench.log.toList)

end Bench

end Hopline
