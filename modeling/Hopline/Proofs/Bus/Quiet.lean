import Hopline.Bus.Quiet
import Hopline.Proofs.Frame.RoundTrip
import Hopline.Proofs.Transmit.Queue

/-! Quiet calls on a bus at rest. Each runs to its end within the turns that it is given: it hands
its frame over, or sends it whole, or drops it, and leaves the bus at rest again. -/

namespace Hopline

/-- What becomes of a frame on a device. -/
inductive Disposal
  | handed (handler : HandlerId) (frame : Frame)
  | sent (frame : Frame)
  | dropped

namespace Disposal

def heard : Disposal → List (HandlerId × Frame)
  | .handed handler frame => [(handler, frame)]
  | _ => []

def carried : Disposal → Bytes
  | .sent frame => frame.wire .checksum
  | _ => []

/-- The counters once that has become of a frame. -/
def count (origin : Origin) (counters : Counters) : Disposal → Counters
  | .handed .. => { counters with delivered := counters.delivered + 1 }
  | .sent _ =>
    match origin with
    | .sent => { counters with transmitted := counters.transmitted + 1 }
    | .received =>
      { counters with transmitted := counters.transmitted + 1, forwarded := counters.forwarded + 1 }
  | .dropped => { counters with expired := counters.expired + 1 }

end Disposal

namespace Bus

/-- Nothing waits, nobody drains, the line is in its slot, and frames end in their checksum. -/
structure Ready (bus : Bus) : Prop where
  queue : bus.queue = .standard
  line : bus.lineHome = true

variable {bus : Bus} {origin : Origin} {frame : Frame} {alive : HandlerId → Bool}

theorem advance_draining {byte : UInt8} {rest : Bytes} (queued : bus.queue.bytes = byte :: rest) (sent : Nat) :
    bus.advance alive (.draining origin frame sent) =
      some { bus := { bus with queue := { bus.queue with bytes := rest } }
             call := .sending origin frame sent byte
             events := [] } := by
  have popped : bus.queue.pop = ({ bus.queue with bytes := rest }, some byte) := by
    unfold TransmitQueue.pop
    rw [queued]
  unfold advance
  dsimp only
  rw [popped]

theorem advance_drained (empty : bus.queue.bytes = []) (sent : Nat) :
    bus.advance alive (.draining origin frame sent) =
      some { bus, call := .returning origin frame, events := [] } := by
  have popped : bus.queue.pop = (bus.queue, none) := by
    unfold TransmitQueue.pop
    rw [empty]
  unfold advance
  dsimp only
  rw [popped]

theorem advance_releasing (empty : bus.queue.bytes = []) :
    bus.advance alive (.releasing origin frame) =
      some ({ bus with queue := { bus.queue with draining := false } }.settle origin frame (.ok ())) := by
  have released : bus.queue.release = ({ bus.queue with draining := false }, true) := by
    unfold TransmitQueue.release
    exact if_pos (List.isEmpty_iff.mpr empty)
  unfold advance
  dsimp only
  rw [released]

theorem enqueue_standard (frame : Frame) :
    TransmitQueue.standard.enqueue frame =
      { queue := { hooks := .checksum, bytes := frame.wire .checksum, draining := true }
        claimed := .ok true
        events := [.frameQueued frame.destination frame.wireSize true] } := by
  have room : frame.wireSize ≤ TransmitQueue.standard.free := frame.wireSize_le.trans (by decide)
  exact TransmitQueue.enqueue_of_room frame.seals_blank.signs room

theorem advance_queueing (ready : bus.Ready) :
    bus.advance alive (.queueing origin frame) =
      some { bus := { bus with queue := { hooks := .checksum, bytes := frame.wire .checksum, draining := true } }
             call := .claiming origin frame
             events := [.frameQueued frame.destination frame.wireSize true] } := by
  unfold advance
  dsimp only
  rw [ready.queue, enqueue_standard]

theorem advance_claiming (home : bus.lineHome = true) :
    bus.advance alive (.claiming origin frame) =
      some { bus := { bus with lineHome := false }, call := .draining origin frame 0, events := [] } := by
  unfold advance
  exact if_pos home

theorem exists_settle (bus : Bus) (origin : Origin) (frame : Frame) :
    ∃ events : List Event, bus.settle origin frame (.ok ()) =
      { bus := { bus with counters := (Disposal.sent frame).count origin bus.counters }
        call := .returned (.ok ())
        events } := by
  cases origin with
  | sent => exact ⟨_, rfl⟩
  | received => exact ⟨_, rfl⟩

end Bus

namespace QuietRun

/-- What a quiet call leaves behind, its counters and its journal aside. -/
structure Leaves (registry : Registry) (window : Window) (heard : List (HandlerId × Frame)) (carried : Bytes)
    (run : QuietRun) : Prop where
  ready : run.bus.Ready
  registry : run.bus.registry = registry
  window : run.bus.window = window
  heard : run.heard = heard
  carried : run.carried = carried
  result : run.result = .ok ()

/-- What a quiet call leaves behind, its counters included. -/
structure Settles (registry : Registry) (window : Window) (counters : Counters) (heard : List (HandlerId × Frame))
    (carried : Bytes) (run : QuietRun) : Prop extends Leaves registry window heard carried run where
  counters : run.bus.counters = counters

variable {alive : HandlerId → Bool} {run : QuietRun} {origin : Origin} {frame : Frame} {holds : QuietRun → Prop}

def after (run : QuietRun) (turn : Turn) : QuietRun :=
  { run with bus := turn.bus, events := run.events ++ turn.events }

theorem proceed_turn {call : Call} {turn : Turn} {turns : Nat} (advanced : run.bus.advance alive call = some turn)
    (later : holds (proceed alive turns (run.after turn) turn.call)) : holds (proceed alive (turns + 1) run call) := by
  cases call with
  | handling | sending | returned => cases advanced
  | _ =>
    simp only [proceed, advanced]
    exact later

theorem proceed_sending {turns sent : Nat} {byte : UInt8}
    (later :
      holds (proceed alive turns { run with carried := run.carried ++ [byte] } (.draining origin frame (sent + 1)))) :
    holds (proceed alive (turns + 1) run (.sending origin frame sent byte)) := by
  rw [proceed]
  exact later

/-- The line takes whatever is queued, two turns for each byte. -/
theorem proceed_draining {bytes : Bytes} {turns sent : Nat} (queued : run.bus.queue.bytes = bytes)
    (later : ∀ (events : List Event) (sent : Nat),
      holds (proceed alive turns
        { run with
          bus := { run.bus with queue := { run.bus.queue with bytes := [] } }
          carried := run.carried ++ bytes
          events }
        (.draining origin frame sent))) :
    holds (proceed alive (turns + 2 * bytes.length) run (.draining origin frame sent)) := by
  induction bytes generalizing run sent with
  | nil =>
    have unchanged := later run.events sent
    rw [List.append_nil, ← queued] at unchanged
    exact unchanged
  | cons byte rest ih =>
    have split : turns + 2 * (byte :: rest).length = turns + 2 * rest.length + 1 + 1 := by
      rw [List.length_cons]
      omega
    rw [split]
    apply proceed_turn (Bus.advance_draining queued sent)
    apply proceed_sending
    apply ih rfl
    intro events sent
    have gone := later events sent
    rw [List.append_cons] at gone
    exact gone

theorem proceed_returned {turns : Nat} {result : Except BusError Unit} (later : holds { run with result }) :
    holds (proceed alive (turns + 1) run (.returned result)) := by
  rw [proceed]
  exact later

/-- A frame that is queued at rest is sent whole. -/
theorem settles_queueing (ready : run.bus.Ready) (turns : Nat) :
    Settles run.bus.registry run.bus.window ((Disposal.sent frame).count origin run.bus.counters) run.heard
      (run.carried ++ frame.wire .checksum)
      (proceed alive (turns + 4 + 2 * frame.wireSize + 2) run (.queueing origin frame)) := by
  apply proceed_turn (Bus.advance_queueing ready)
  refine proceed_turn (Bus.advance_claiming ?home) ?_
  case home => exact ready.line
  rw [← frame.length_wire .checksum]
  refine proceed_draining ?queued ?_
  case queued => rfl
  intro events sent
  refine proceed_turn (Bus.advance_drained ?empty sent) ?_
  case empty => rfl
  apply proceed_turn (show Bus.advance _ alive (.returning origin frame) = some _ from rfl)
  refine proceed_turn (Bus.advance_releasing ?empty) ?_
  case empty => rfl
  obtain ⟨events, settled⟩ := Bus.exists_settle _ origin frame
  rw [settled]
  apply proceed_returned
  exact ⟨⟨⟨rfl, rfl⟩, rfl, rfl, rfl, rfl, rfl⟩, rfl⟩

/-- A frame that has reached its handler is handed to it, once. -/
theorem settles_handling (ready : run.bus.Ready) (handler : HandlerId) (turns : Nat) :
    Settles run.bus.registry run.bus.window ((Disposal.handed handler frame).count origin run.bus.counters)
      (run.heard ++ [(handler, frame)]) run.carried
      (proceed alive (turns + 3) run (.handling origin frame handler)) := by
  rw [proceed]
  apply proceed_turn (show Bus.advance _ alive (.handled origin frame) = some _ from rfl)
  apply proceed_returned
  exact ⟨⟨⟨ready.queue, ready.line⟩, rfl, rfl, rfl, rfl, rfl⟩, rfl⟩

end QuietRun

/-- Where routing takes a frame that may still travel. -/
def Registry.dispose (registry : Registry) (alive : HandlerId → Bool) (origin : Origin) (frame : Frame) : Disposal :=
  match registry.resolve alive frame.destination, origin with
  | some handler, _ => .handed handler frame
  | none, .sent => .sent frame
  | none, .received => if frame.ttl = 1 then .dropped else .sent (frame.withTtl (frame.ttl - 1))

/-- Where routing takes a frame from the line. -/
def Registry.relay (registry : Registry) (alive : HandlerId → Bool) (frame : Frame) : Disposal :=
  if frame.ttl = 0 then .dropped else registry.dispose alive .received frame

theorem Registry.relay_of_fresh {registry : Registry} {alive : HandlerId → Bool} {frame : Frame}
    (fresh : frame.ttl ≠ 0) :
    registry.relay alive frame = registry.dispose alive .received frame := if_neg fresh

def Disposal.turn (bus : Bus) (origin : Origin) (frame : Frame) : Disposal → Turn
  | .handed handler frame => { bus, call := .handling origin frame handler, events := [] }
  | .sent frame => { bus, call := .queueing origin frame, events := [] }
  | .dropped => bus.expire (.hopBudgetExhausted frame.source frame.destination)

theorem Bus.route_of_spent {bus : Bus} {alive : HandlerId → Bool} {frame : Frame} (spent : frame.ttl = 0) :
    bus.route alive .received frame = bus.expire (.zeroTtlDropped frame.source frame.destination) := if_pos spent

theorem Bus.route_of_fresh {bus : Bus} {alive : HandlerId → Bool} {origin : Origin} {frame : Frame}
    (fresh : frame.ttl ≠ 0) :
    bus.route alive origin frame = (bus.registry.dispose alive origin frame).turn bus origin frame := by
  unfold Bus.route Registry.dispose
  dsimp only
  cases bus.registry.resolve alive frame.destination with
  | some handler =>
    cases origin with
    | sent => rfl
    | received => exact if_neg fresh
  | none =>
    cases origin with
    | sent => rfl
    | received =>
      dsimp only
      rw [if_neg fresh]
      split <;> rfl

namespace QuietRun

variable {alive : HandlerId → Bool} {run : QuietRun} {origin : Origin} {frame : Frame}

theorem settles_routing (ready : run.bus.Ready) (fresh : frame.ttl ≠ 0) {turns : Nat}
    (enough : 2 * maxFrame + 7 ≤ turns) :
    let disposal := run.bus.registry.dispose alive origin frame
    Settles run.bus.registry run.bus.window (disposal.count origin run.bus.counters) (run.heard ++ disposal.heard)
      (run.carried ++ disposal.carried) (proceed alive turns run (.routing origin frame)) := by
  intro disposal
  have bound : 149 ≤ turns := enough
  obtain ⟨left, rfl⟩ : ∃ left : Nat, turns = left + 1 := ⟨turns - 1, by omega⟩
  have routed : run.bus.advance alive (.routing origin frame) = some (disposal.turn run.bus origin frame) :=
    congrArg some (Bus.route_of_fresh fresh)
  apply proceed_turn routed
  cases disposal with
  | handed handler found =>
    obtain ⟨spare, rfl⟩ : ∃ spare : Nat, left = spare + 3 := ⟨left - 3, by omega⟩
    rw [show Disposal.carried (.handed handler found) = [] from rfl, List.append_nil]
    let turn : Turn := { bus := run.bus, call := .handling origin found handler, events := [] }
    exact @settles_handling alive (run.after turn) origin found ready handler spare
  | sent passed =>
    have largest : passed.wireSize ≤ 71 := passed.wireSize_le
    obtain ⟨spare, rfl⟩ : ∃ spare : Nat, left = spare + 4 + 2 * passed.wireSize + 2 :=
      ⟨left - 2 * passed.wireSize - 6, by omega⟩
    rw [show Disposal.heard (.sent passed) = [] from rfl, List.append_nil]
    let turn : Turn := { bus := run.bus, call := .queueing origin passed, events := [] }
    exact @settles_queueing alive (run.after turn) origin passed ready spare
  | dropped =>
    obtain ⟨spare, rfl⟩ : ∃ spare : Nat, left = spare + 1 := ⟨left - 1, by omega⟩
    rw [show Disposal.heard .dropped = [] from rfl, show Disposal.carried .dropped = [] from rfl, List.append_nil,
      List.append_nil]
    apply proceed_returned
    exact ⟨⟨⟨ready.queue, ready.line⟩, rfl, rfl, rfl, rfl, rfl⟩, rfl⟩

theorem settles_received (ready : run.bus.Ready) {turns : Nat} (enough : 2 * maxFrame + 7 ≤ turns) :
    let disposal := run.bus.registry.relay alive frame
    Settles run.bus.registry run.bus.window (disposal.count .received run.bus.counters) (run.heard ++ disposal.heard)
      (run.carried ++ disposal.carried) (proceed alive turns run (.routing .received frame)) := by
  have bound : 149 ≤ turns := enough
  obtain ⟨left, rfl⟩ : ∃ left : Nat, turns = left + 2 := ⟨turns - 2, by omega⟩
  by_cases spent : frame.ttl = 0
  · have routed : run.bus.advance alive (.routing .received frame) =
        some (run.bus.expire (.zeroTtlDropped frame.source frame.destination)) :=
      congrArg some (Bus.route_of_spent spent)
    rw [Registry.relay, if_pos spent]
    apply proceed_turn routed
    rw [show Disposal.heard .dropped = [] from rfl, show Disposal.carried .dropped = [] from rfl, List.append_nil,
      List.append_nil]
    apply proceed_returned
    exact ⟨⟨⟨ready.queue, ready.line⟩, rfl, rfl, rfl, rfl, rfl⟩, rfl⟩
  · rw [Registry.relay_of_fresh spent]
    exact settles_routing ready spent enough

end QuietRun

theorem Call.signal_of_fresh {frame : Frame} (fresh : frame.ttl ≠ 0) :
    Call.signal frame.toMessage = .ok (.routing .sent frame) := by
  have carried : Frame.ofMessage frame.toMessage = .ok frame := dif_pos frame.payload_le
  unfold Call.signal
  rw [if_neg (Nat.not_lt.mpr frame.payload_le), if_neg fresh, carried]

namespace Bus

open QuietRun

variable {bus : Bus} {frame : Frame} {alive : HandlerId → Bool}

theorem turnsNeeded_of_ready (ready : bus.Ready) : bus.turnsNeeded = 584 := by
  unfold turnsNeeded
  rw [ready.queue]
  rfl

theorem settles_signal (ready : bus.Ready) (fresh : frame.ttl ≠ 0) :
    let disposal := bus.registry.dispose alive .sent frame
    Settles bus.registry bus.window (disposal.count .sent bus.counters) disposal.heard disposal.carried
      (bus.signalQuietly alive frame.toMessage) := by
  unfold signalQuietly runQuietly
  rw [Call.signal_of_fresh fresh, turnsNeeded_of_ready ready]
  exact @settles_routing alive (begin bus) .sent frame ready fresh 584 (by decide)

theorem leaves_signal (ready : bus.Ready) (fresh : frame.ttl ≠ 0) :
    let disposal := bus.registry.dispose alive .sent frame
    Leaves bus.registry bus.window disposal.heard disposal.carried (bus.signalQuietly alive frame.toMessage) :=
  (settles_signal ready fresh).toLeaves

theorem settles_ingest_inside (ready : bus.Ready) {byte : UInt8} (nothing : (bus.window.ingest byte).frame = none) :
    Settles bus.registry (bus.window.ingest byte).window bus.counters [] [] (bus.ingestQuietly alive byte) := by
  let turn : Turn :=
    { bus := { bus with window := (bus.window.ingest byte).window }
      call := .returned (.ok ())
      events := (bus.window.ingest byte).events }
  have heard : bus.advance alive (.hearing byte) = some turn := by
    unfold advance
    dsimp only
    rw [nothing]
  unfold ingestQuietly runQuietly
  rw [turnsNeeded_of_ready ready]
  apply @proceed_turn alive (begin bus) _ (.hearing byte) turn 583 heard
  apply @proceed_returned alive ((begin bus).after turn) _ 582
  exact ⟨⟨⟨ready.queue, ready.line⟩, rfl, rfl, rfl, rfl, rfl⟩, rfl⟩

theorem settles_ingest_last (ready : bus.Ready) {byte : UInt8} (whole : (bus.window.ingest byte).frame = some frame) :
    let disposal := bus.registry.relay alive frame
    Settles bus.registry (bus.window.ingest byte).window (disposal.count .received bus.counters) disposal.heard
      disposal.carried (bus.ingestQuietly alive byte) := by
  let turn : Turn :=
    { bus := { bus with window := (bus.window.ingest byte).window }
      call := .routing .received frame
      events := (bus.window.ingest byte).events }
  have heard : bus.advance alive (.hearing byte) = some turn := by
    unfold advance
    dsimp only
    rw [whole]
  have still : turn.bus.Ready := ⟨ready.queue, ready.line⟩
  unfold ingestQuietly runQuietly
  rw [turnsNeeded_of_ready ready]
  apply @proceed_turn alive (begin bus) _ (.hearing byte) turn 583 heard
  exact @settles_received alive ((begin bus).after turn) frame still 583 (by decide)

end Bus

end Hopline
