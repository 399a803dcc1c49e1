import Hopline.Bus.Call

/-! Calls on a quiet device: handlers only listen, the line takes every byte, and
nobody else calls meanwhile. Such a call runs to its end in one go. -/

namespace Hopline

structure QuietRun where
  bus : Bus
  heard : List (HandlerId × Frame)
  carried : Bytes
  result : Except BusError Unit
  events : List Event

namespace QuietRun

def begin (bus : Bus) : QuietRun :=
  { bus, heard := [], carried := [], result := .ok (), events := [] }

/-- Gives a call up to `turns` turns, answering for its handler and for the line. -/
def proceed (alive : HandlerId → Bool) : (turns : Nat) → QuietRun → Call → QuietRun
  | 0, run, _ => run
  | turns + 1, run, call =>
    match call with
    | .handling _ frame handler =>
      QuietRun.proceed alive turns { run with heard := run.heard ++ [(handler, frame)] }
        call.afterHandler
    | .sending _ _ _ byte =>
      QuietRun.proceed alive turns { run with carried := run.carried ++ [byte] }
        (call.afterLine (.ok ()))
    | .returned result => { run with result }
    | call =>
      match run.bus.advance alive call with
      | none => run
      | some turn =>
        QuietRun.proceed alive turns
          { run with bus := turn.bus, events := run.events ++ turn.events } turn.call

end QuietRun

namespace Bus

/-- Turns that are enough for any call: two for each byte that may have to be sent,
and a few besides. -/
def turnsNeeded (bus : Bus) : Nat := 2 * (bus.queue.length + queueCapacity) + 16

def runQuietly (bus : Bus) (alive : HandlerId → Bool) (call : Call) : QuietRun :=
  QuietRun.proceed alive bus.turnsNeeded (QuietRun.begin bus) call

def signalQuietly (bus : Bus) (alive : HandlerId → Bool) (message : Message) : QuietRun :=
  match Call.signal message with
  | .ok call => bus.runQuietly alive call
  | .error error => { QuietRun.begin bus with result := .error error }

def ingestQuietly (bus : Bus) (alive : HandlerId → Bool) (byte : UInt8) : QuietRun :=
  bus.runQuietly alive (Call.ingest byte)

def listenQuietly (bus : Bus) (alive : HandlerId → Bool) : Bytes → QuietRun
  | [] => QuietRun.begin bus
  | byte :: rest =>
    let first := bus.ingestQuietly alive byte
    let later := first.bus.listenQuietly alive rest
    { later with
      heard := first.heard ++ later.heard
      carried := first.carried ++ later.carried
      events := first.events ++ later.events }

end Bus

end Hopline
