import Hopline.Bus.Basic

/-! Calls into a bus, one critical section at a time. A call is a value that says
what it does next, so any number of them can be under way at once: a handler or a
line that sends again starts another call while its own one waits. Nothing here
knows in which order calls take their turns. -/

namespace Hopline

inductive Origin
  | sent
  | received
deriving DecidableEq, Inhabited

/-- What a call has to do next. -/
inductive Call
  | hearing (byte : UInt8)
  | routing (origin : Origin) (frame : Frame)
  | handling (origin : Origin) (frame : Frame) (handler : HandlerId)
  | handled (origin : Origin) (frame : Frame)
  | queueing (origin : Origin) (frame : Frame)
  /-- Take the line out of its slot; the call is the drainer now. -/
  | claiming (origin : Origin) (frame : Frame)
  /-- Give the queue up, since the line was not there. -/
  | stranded (origin : Origin) (frame : Frame)
  | draining (origin : Origin) (frame : Frame) (sent : Nat)
  | sending (origin : Origin) (frame : Frame) (sent : Nat) (byte : UInt8)
  | failing (origin : Origin) (frame : Frame) (sent : Nat) (error : LineError)
  | discarding (origin : Origin) (frame : Frame) (error : LineError)
  | returning (origin : Origin) (frame : Frame)
  /-- Give up the drain, or go on if more has been queued. -/
  | releasing (origin : Origin) (frame : Frame)
  | returned (result : Except BusError Unit)
deriving Inhabited

namespace Call

def signal (message : Message) : Except BusError Call :=
  if maxPayload < message.payload.length then
    .error (.payloadTooLarge message.payload.length maxPayload)
  else if message.ttl = 0 then .error .zeroTtl
  else match Frame.ofMessage message with
    | .ok frame => .ok (.routing .sent frame)
    | .error error => .error (.frame error)

def receive (frame : Frame) : Call := .routing .received frame

def ingest (byte : UInt8) : Call := .hearing byte

def afterHandler : Call → Call
  | .handling origin frame _ => .handled origin frame
  | call => call

def afterLine (answer : Except LineError Unit) : Call → Call
  | .sending origin frame sent _ =>
    match answer with
    | .ok () => .draining origin frame (sent + 1)
    | .error error => .failing origin frame sent error
  | call => call

end Call

structure Turn where
  bus : Bus
  call : Call
  events : List Event

namespace Bus

def settle (bus : Bus) (origin : Origin) (frame : Frame) : Except FrameError Unit → Turn
  | .error error =>
    { bus := { bus with counters := { bus.counters with txErrors := bus.counters.txErrors + 1 } }
      call := .returned (match origin with
        | .sent => .error (.frame error)
        | .received => .ok ())
      events := [.transmitFailed frame.destination error] }
  | .ok () =>
    let counters := { bus.counters with transmitted := bus.counters.transmitted + 1 }
    match origin with
    | .sent => { bus := { bus with counters }, call := .returned (.ok ()), events := [] }
    | .received =>
      { bus := { bus with counters := { counters with forwarded := counters.forwarded + 1 } }
        call := .returned (.ok ())
        events := [.forwarded frame.source frame.destination frame.ttl] }

def expire (bus : Bus) (event : Event) : Turn :=
  { bus := { bus with counters := { bus.counters with expired := bus.counters.expired + 1 } }
    call := .returned (.ok ())
    events := [event] }

/-- Decides where a frame goes. A frame from the line loses one hop before it is
sent on. -/
def route (bus : Bus) (alive : HandlerId → Bool) (origin : Origin) (frame : Frame) : Turn :=
  let found := bus.registry.resolve alive frame.destination
  match origin, found with
  | .sent, some handler => { bus, call := .handling .sent frame handler, events := [] }
  | .sent, none => { bus, call := .queueing .sent frame, events := [] }
  | .received, found =>
    if frame.ttl = 0 then bus.expire (.zeroTtlDropped frame.source frame.destination)
    else match found with
      | some handler => { bus, call := .handling .received frame handler, events := [] }
      | none =>
        if frame.ttl = 1 then bus.expire (.hopBudgetExhausted frame.source frame.destination)
        else { bus, call := .queueing .received (frame.withTtl (frame.ttl - 1)), events := [] }

def deliver (bus : Bus) (origin : Origin) (frame : Frame) : Turn :=
  { bus := { bus with
      counters := { bus.counters with delivered := bus.counters.delivered + 1 } }
    call := .returned (.ok ())
    events := [match origin with
      | .sent => .deliveredLocally frame.source frame.destination
      | .received => .delivered frame.source frame.destination frame.ttl] }

/-- Gives a call its turn: one critical section. A call that waits for its handler
or for the line, and one that has returned, has no turn to take. -/
def advance (bus : Bus) (alive : HandlerId → Bool) : Call → Option Turn
  | .hearing byte =>
    let heard := bus.window.ingest byte
    some { bus := { bus with window := heard.window }
           call := match heard.frame with
             | some frame => .routing .received frame
             | none => .returned (.ok ())
           events := heard.events }
  | .routing origin frame => some (bus.route alive origin frame)
  | .handling .. => none
  | .handled origin frame => some (bus.deliver origin frame)
  | .queueing origin frame =>
    let result := bus.queue.enqueue frame
    let bus := { bus with queue := result.queue }
    match result.claimed with
    | .ok true => some { bus, call := .claiming origin frame, events := result.events }
    | .ok false =>
      let turn := bus.settle origin frame (.ok ())
      some { turn with events := result.events ++ turn.events }
    | .error error =>
      let turn := bus.settle origin frame (.error error)
      some { turn with events := result.events ++ turn.events }
  | .claiming origin frame =>
    if bus.lineHome then
      some { bus := { bus with lineHome := false }, call := .draining origin frame 0, events := [] }
    else some { bus, call := .stranded origin frame, events := [] }
  | .stranded origin frame =>
    let (queue, dropped) := bus.queue.abort
    let turn := { bus with queue }.settle origin frame (.ok ())
    some { turn with events := .lineMissing dropped :: turn.events }
  | .draining origin frame sent =>
    match bus.queue.pop with
    | (queue, some byte) =>
      some { bus := { bus with queue }, call := .sending origin frame sent byte, events := [] }
    | (queue, none) =>
      some { bus := { bus with queue }, call := .returning origin frame, events := [] }
  | .sending .. => none
  | .failing origin frame sent error =>
    some { bus := { bus with lineHome := true }
           call := .discarding origin frame error
           events := [.drainFailed error sent] }
  | .discarding origin frame error =>
    let (queue, dropped) := bus.queue.abort
    let turn := { bus with queue }.settle origin frame (.error (.line error))
    some { turn with events := .queueDiscarded dropped :: turn.events }
  | .returning origin frame =>
    some { bus := { bus with lineHome := true }, call := .releasing origin frame, events := [] }
  | .releasing origin frame =>
    match bus.queue.release with
    | (queue, true) => some ({ bus with queue }.settle origin frame (.ok ()))
    | (queue, false) =>
      some { bus := { bus with queue }, call := .claiming origin frame, events := [] }
  | .returned _ => none

end Bus

end Hopline
