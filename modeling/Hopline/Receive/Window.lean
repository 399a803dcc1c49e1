import Hopline.Event
import Hopline.Frame.Wire

/-! The receive window: the most recent bytes of the line, out of which frames are
rebuilt one byte at a time. A frame counts only if it ends at the newest byte, and
the bytes of a frame that was handed out are gone. -/

namespace Hopline

inductive SyncPolicy
  /-- Only at its own start. After noise it stays out of step until the noise has
  slid out. -/
  | headOnly
  | tailScan
deriving DecidableEq, Inhabited

def SyncPolicy.name : SyncPolicy → String
  | .headOnly => "HeadOnly"
  | .tailScan => "TailScan"

inductive ReceivePhase
  | idle
  | accumulating
  /-- It checks a candidate. No caller ever sees this phase. -/
  | validating
deriving DecidableEq, Inhabited

def ReceivePhase.name : ReceivePhase → String
  | .idle => "Idle"
  | .accumulating => "Accumulating"
  | .validating => "Validating"

structure ReceiveStats where
  frames : UInt32
  rejected : UInt32
  overflowed : UInt32
deriving DecidableEq, Inhabited

structure Window where
  hooks : FrameHooks
  policy : SyncPolicy
  bytes : Bytes
  phase : ReceivePhase
  stats : ReceiveStats
deriving Inhabited

def Decoding.events : Decoding → List Event
  | .refused (.codec fault) position => [.decodeFailed fault position]
  | _ => []

inductive Verdict
  /-- The span is not of the length that its header announces. -/
  | unfit
  | rejected (events : List Event)
  | accepted (frame : Frame)
deriving DecidableEq, Inhabited

def Verdict.ofSpan (hooks : FrameHooks) (span : Bytes) : Verdict :=
  match Header.peek span with
  | none => .unfit
  | some header =>
    if header.frameLength ≠ span.length then .unfit
    else match Frame.decode hooks span with
      | .incomplete => .unfit
      | .complete frame => .accepted frame
      | refused => .rejected refused.events

structure Search where
  frame : Option Frame
  rejected : Nat
  events : List Event
deriving DecidableEq, Inhabited

/-- The first acceptable span wins; those before it that fail are counted. -/
def Search.run (hooks : FrameHooks) : List Bytes → Search
  | [] => { frame := none, rejected := 0, events := [] }
  | span :: rest =>
    match Verdict.ofSpan hooks span with
    | .unfit => run hooks rest
    | .accepted frame => { frame := some frame, rejected := 0, events := [] }
    | .rejected events =>
      let later := run hooks rest
      { later with rejected := later.rejected + 1, events := events ++ later.events }

namespace Window

def empty (hooks : FrameHooks) (policy : SyncPolicy) : Window :=
  { hooks, policy, bytes := [], phase := .idle,
    stats := { frames := 0, rejected := 0, overflowed := 0 } }

def standard : Window := empty .checksum .headOnly

def length (window : Window) : Nat := window.bytes.length

def isEmpty (window : Window) : Bool := window.bytes.isEmpty

/-- Appends a byte; a full window first loses its oldest one. -/
def push (window : Window) (byte : UInt8) : Window :=
  if window.bytes.length = maxFrame then
    { window with
      bytes := window.bytes.tail ++ [byte]
      phase := .accumulating
      stats := { window.stats with overflowed := window.stats.overflowed + 1 } }
  else { window with bytes := window.bytes ++ [byte], phase := .accumulating }

def candidates (policy : SyncPolicy) (bytes : Bytes) : List Bytes :=
  match policy with
  | .headOnly => [bytes]
  | .tailScan =>
    (List.range (bytes.length - (headerSize + trailerSize) + 1)).map fun start => bytes.drop start

def clear (window : Window) : Window := { window with bytes := [], phase := .idle }

structure Ingestion where
  window : Window
  frame : Option Frame
  events : List Event

/-- Takes one byte from the line and hands out the frame that it completes. -/
def ingest (window : Window) (byte : UInt8) : Ingestion :=
  let held := window.push byte
  let search := Search.run held.hooks (candidates held.policy held.bytes)
  let stats := { held.stats with rejected := held.stats.rejected + UInt32.ofNat search.rejected }
  match search.frame with
  | none => { window := { held with stats }, frame := none, events := search.events }
  | some frame =>
    { window := { held with stats := { stats with frames := stats.frames + 1 } }.clear
      frame := some frame
      events := search.events ++
        [.frameReceived frame.destination frame.source frame.ttl frame.payload.length] }

structure Reception where
  window : Window
  /-- The frames handed out, each with the index of the byte that completed it. -/
  frames : List (Nat × Frame)
  events : List Event

def feedFrom (window : Window) (index : Nat) : Bytes → Reception
  | [] => { window, frames := [], events := [] }
  | byte :: rest =>
    let first := window.ingest byte
    let later := first.window.feedFrom (index + 1) rest
    { later with
      frames := (first.frame.map fun frame => (index, frame)).toList ++ later.frames
      events := first.events ++ later.events }

def feed (window : Window) (bytes : Bytes) : Reception := window.feedFrom 0 bytes

def reset (window : Window) : Window × List Event := (window.clear, [.windowReset])

def describe (window : Window) : String :=
  let stats := Text.record "RxStats"
    [⟨"frames", toString window.stats.frames.toNat⟩,
      ⟨"rejected", toString window.stats.rejected.toNat⟩,
      ⟨"overflowed", toString window.stats.overflowed.toNat⟩] false
  Text.record "ReceiveAccumulator"
    [⟨"policy", window.policy.name⟩, ⟨"len", toString window.length⟩, ⟨"stats", stats⟩]
    false

end Window

end Hopline
