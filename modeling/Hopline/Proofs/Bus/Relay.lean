import Hopline.Proofs.Bus.Quiet
import Hopline.Proofs.Receive.CleanStream

/-! A bus at rest on a clean line. Each frame is handed over, sent on or dropped by the time its last
byte is in, so a run of frames comes out of the bus frame by frame. -/

namespace Hopline

namespace Bus

open QuietRun

variable {bus : Bus} {alive : HandlerId → Bool} {registry earlier : Registry} {window held : Window}
  {counters : Counters} {heard more : List (HandlerId × Frame)} {carried further : Bytes}

theorem listenQuietly_append (bus : Bus) (alive : HandlerId → Bool) (front back : Bytes) :
    let first := bus.listenQuietly alive front
    let later := first.bus.listenQuietly alive back
    bus.listenQuietly alive (front ++ back) =
      { later with
        heard := first.heard ++ later.heard
        carried := first.carried ++ later.carried
        events := first.events ++ later.events } := by
  induction front generalizing bus with
  | nil => rfl
  | cons byte rest ih =>
    simp only [List.cons_append, listenQuietly, ih, List.append_assoc]

theorem settles_append {front back : Bytes}
    (first : Leaves earlier held heard carried (bus.listenQuietly alive front))
    (later : Settles registry window counters more further
      ((bus.listenQuietly alive front).bus.listenQuietly alive back)) :
    Settles registry window counters (heard ++ more) (carried ++ further)
      (bus.listenQuietly alive (front ++ back)) := by
  rw [listenQuietly_append]
  refine ⟨⟨later.ready, later.registry, later.window, ?_, ?_, later.result⟩, later.counters⟩
  · exact congrArg₂ (· ++ ·) first.heard later.heard
  · exact congrArg₂ (· ++ ·) first.carried later.carried

theorem settles_byte {byte : UInt8}
    (settles : Settles registry window counters heard carried (bus.ingestQuietly alive byte)) :
    Settles registry window counters heard carried (bus.listenQuietly alive [byte]) := by
  refine ⟨⟨settles.ready, settles.registry, settles.window, ?_, ?_, rfl⟩, settles.counters⟩
  · exact (List.append_nil _).trans settles.heard
  · exact (List.append_nil _).trans settles.carried

theorem settles_silent (ready : bus.Ready) (alive : HandlerId → Bool) {bytes : Bytes} {index : Nat}
    (silent : (bus.window.feedFrom index bytes).frames = []) :
    Settles bus.registry (bus.window.feedFrom index bytes).window bus.counters [] []
      (bus.listenQuietly alive bytes) := by
  induction bytes generalizing bus index with
  | nil => exact ⟨⟨ready, rfl, rfl, rfl, rfl, rfl⟩, rfl⟩
  | cons byte rest ih =>
    simp only [Window.feedFrom, List.append_eq_nil_iff, Option.toList_eq_nil_iff, Option.map_eq_none_iff] at silent ⊢
    obtain ⟨nothing, silent⟩ := silent
    have first := settles_byte (@settles_ingest_inside bus alive ready byte nothing)
    rw [← first.window] at silent ⊢
    have later := ih first.ready silent
    rw [first.registry, first.counters] at later
    exact settles_append first.toLeaves later

/-- A whole frame has met its end with its last byte. -/
theorem settles_wire (ready : bus.Ready) (plain : bus.window.Plain) (empty : bus.window.bytes = [])
    (alive : HandlerId → Bool) (frame : Frame) (index : Nat) :
    let disposal := bus.registry.relay alive frame
    Settles bus.registry (bus.window.feedFrom index (frame.wire .checksum)).window
      (disposal.count .received bus.counters) disposal.heard disposal.carried
      (bus.listenQuietly alive (frame.wire .checksum)) := by
  obtain ⟨front, last, split, _, silent, still, whole, _⟩ := Window.exists_held plain empty frame index
  obtain ⟨_, final⟩ := Window.feedFrom_append bus.window index front [last]
  obtain ⟨found, _⟩ := Window.ingest_last still whole
  have first := settles_silent ready alive silent
  rw [← first.window] at found final
  have later := settles_byte (@settles_ingest_last _ frame alive first.ready last found)
  rw [first.registry, first.counters] at later
  rw [split, final]
  exact settles_append first.toLeaves later

end Bus

/-- The counters once some frames have been handed over, some sent on and some dropped. -/
def Counters.grow (counters : Counters) (handed sent dropped : Nat) : Counters :=
  { counters with
    delivered := counters.delivered + UInt32.ofNat handed
    forwarded := counters.forwarded + UInt32.ofNat sent
    transmitted := counters.transmitted + UInt32.ofNat sent
    expired := counters.expired + UInt32.ofNat dropped }

theorem Counters.grow_grow (counters : Counters) (handed sent dropped moreHanded moreSent moreDropped : Nat) :
    (counters.grow handed sent dropped).grow moreHanded moreSent moreDropped =
      counters.grow (moreHanded + handed) (moreSent + sent) (moreDropped + dropped) := by
  simp only [grow, UInt32.add_assoc, ← UInt32.ofNat_add, Nat.add_comm]

theorem Counters.grow_zero (counters : Counters) : counters.grow 0 0 0 = counters := by
  simp [grow]

theorem Disposal.count_handed (counters : Counters) (handler : HandlerId) (frame : Frame) :
    (handed handler frame).count .received counters = counters.grow 1 0 0 := by
  simp [count, Counters.grow]

theorem Disposal.count_sent (counters : Counters) (frame : Frame) :
    (sent frame).count .received counters = counters.grow 0 1 0 := by
  simp [count, Counters.grow]

theorem Disposal.count_dropped (counters : Counters) : dropped.count .received counters = counters.grow 0 0 1 := by
  simp [count, Counters.grow]

namespace Registry

variable {registry : Registry} {alive : HandlerId → Bool} {frame : Frame}

/-- The earliest live node at the destination of a frame. -/
def node? (registry : Registry) (alive : HandlerId → Bool) (frame : Frame) : Option HandlerId :=
  ((registry.live alive).find? fun entry => entry.address == frame.destination).map Registration.handler

/-- Who gets a frame from the line. -/
def delivery? (registry : Registry) (alive : HandlerId → Bool) (frame : Frame) : Option (HandlerId × Frame) :=
  if 1 ≤ frame.ttl then (registry.node? alive frame).map fun handler => (handler, frame) else none

/-- What is sent on of a frame from the line. -/
def onward? (registry : Registry) (alive : HandlerId → Bool) (frame : Frame) : Option Frame :=
  if registry.node? alive frame = none ∧ 2 ≤ frame.ttl then some (frame.withTtl (frame.ttl - 1)) else none

/-- Neither is anybody handed the frame nor is it sent on. -/
def Drops (registry : Registry) (alive : HandlerId → Bool) (frame : Frame) : Prop :=
  registry.delivery? alive frame = none ∧ registry.onward? alive frame = none

instance (registry : Registry) (alive : HandlerId → Bool) (frame : Frame) : Decidable (registry.Drops alive frame) :=
  inferInstanceAs (Decidable (_ ∧ _))

theorem resolve_eq_node? (registry : Registry) (alive : HandlerId → Bool) (frame : Frame) :
    registry.resolve alive frame.destination = registry.node? alive frame := by
  unfold resolve node? live
  rw [List.find?_filter]
  simp only [Bool.decide_and, Bool.decide_eq_true, Bool.and_comm]

theorem relay_cases (registry : Registry) (alive : HandlerId → Bool) (frame : Frame) :
    (∃ handler, registry.relay alive frame = .handed handler frame ∧
        registry.delivery? alive frame = some (handler, frame) ∧ registry.onward? alive frame = none) ∨
      (∃ passed, registry.relay alive frame = .sent passed ∧
        registry.delivery? alive frame = none ∧ registry.onward? alive frame = some passed) ∨
      (registry.relay alive frame = .dropped ∧ registry.Drops alive frame) := by
  have alive_iff : 1 ≤ frame.ttl ↔ frame.ttl ≠ 0 := by
    rw [UInt8.le_iff_toNat_le, ne_eq, ← UInt8.toNat_inj]
    exact Nat.one_le_iff_ne_zero
  have far_iff : 2 ≤ frame.ttl ↔ frame.ttl ≠ 0 ∧ frame.ttl ≠ 1 := by
    rw [UInt8.le_iff_toNat_le, ne_eq, ne_eq, ← UInt8.toNat_inj, ← UInt8.toNat_inj]
    exact Nat.two_le_iff _
  simp only [Drops, delivery?, onward?, alive_iff, far_iff]
  by_cases spent : frame.ttl = 0
  · refine .inr (.inr ⟨if_pos spent, if_neg ?_, if_neg ?_⟩)
    · exact fun fresh => fresh spent
    · exact fun far => far.2.1 spent
  · rw [relay_of_fresh spent, if_pos spent]
    unfold dispose
    rw [resolve_eq_node?]
    cases registry.node? alive frame with
    | some handler => exact .inl ⟨handler, rfl, rfl, if_neg fun far => nomatch far.1⟩
    | none =>
      by_cases last : frame.ttl = 1
      · exact .inr (.inr ⟨if_pos last, rfl, if_neg fun far => far.2.2 last⟩)
      · exact .inr (.inl ⟨_, if_neg last, rfl, if_pos ⟨rfl, spent, last⟩⟩)

end Registry

namespace Bus

variable {bus : Bus}

theorem settles_wires (ready : bus.Ready) (plain : bus.window.Plain) (empty : bus.window.bytes = [])
    (alive : HandlerId → Bool) (frames : List Frame) (index : Nat) :
    let handed := frames.filterMap (bus.registry.delivery? alive)
    let sent := frames.filterMap (bus.registry.onward? alive)
    let dropped := frames.filter (bus.registry.Drops alive)
    QuietRun.Settles bus.registry (bus.window.feedFrom index (Frame.wires .checksum frames)).window
      (bus.counters.grow handed.length sent.length dropped.length) handed (Frame.wires .checksum sent)
      (bus.listenQuietly alive (Frame.wires .checksum frames)) := by
  -- on the frames, from any bus at rest: each frame leaves the bus at rest
  induction frames generalizing bus index with
  | nil => exact ⟨⟨ready, rfl, rfl, rfl, rfl, rfl⟩, bus.counters.grow_zero.symm⟩
  | cons frame rest ih =>
    have first := settles_wire ready plain empty alive frame index
    obtain ⟨_, still, cleared, _⟩ := Window.feedFrom_frame plain empty frame index
    obtain ⟨_, final⟩ := Window.feedFrom_append bus.window index (frame.wire .checksum) (Frame.wires .checksum rest)
    rw [← first.window] at still cleared final
    have later := ih first.ready still cleared (index + (frame.wire .checksum).length)
    rw [← final, first.registry, first.counters] at later
    have both := settles_append first.toLeaves later
    rw [Frame.wires_cons]
    rcases bus.registry.relay_cases alive frame with
      ⟨handler, relayed, handed, sent⟩ | ⟨passed, relayed, handed, sent⟩ | ⟨relayed, dropped⟩
    · have kept : ¬ bus.registry.Drops alive frame := fun drops => nomatch handed.symm.trans drops.1
      rw [relayed, Disposal.count_handed, Counters.grow_grow] at both
      simp only [List.filterMap_cons, List.filter_cons, handed, sent, kept]
      exact both
    · have kept : ¬ bus.registry.Drops alive frame := fun drops => nomatch sent.symm.trans drops.2
      rw [relayed, Disposal.count_sent, Counters.grow_grow] at both
      simp only [List.filterMap_cons, List.filter_cons, handed, sent, kept]
      exact both
    · rw [relayed, Disposal.count_dropped, Counters.grow_grow] at both
      simp only [List.filterMap_cons, List.filter_cons, dropped.1, dropped.2, dropped]
      exact both

/-- A bus at rest is an exact relay: of the frames on a clean line it hands over those that are for a
node of its own, sends on those that are not and may travel further, and counts each of them once. -/
theorem relays_exactly (registry : Registry) (alive : HandlerId → Bool) (counters : Counters) (received : ReceiveStats)
    (frames : List Frame) :
    let bus : Bus :=
      { Bus.ofConfig .standard with
        registry
        counters
        window := { Window.empty .checksum .headOnly with stats := received } }
    let run := bus.listenQuietly alive (Frame.wires .checksum frames)
    let handed := frames.filterMap (registry.delivery? alive)
    let sent := frames.filterMap (registry.onward? alive)
    let dropped := frames.filter (registry.Drops alive)
    (∀ frame : Frame, frame.encode .checksum = .ok (frame.wire .checksum)) ∧
    run.heard = handed ∧
    run.carried = Frame.wires .checksum sent ∧
    run.bus.stats =
      { bus.stats with
        delivered := bus.stats.delivered + UInt32.ofNat handed.length
        forwarded := bus.stats.forwarded + UInt32.ofNat sent.length
        transmitted := bus.stats.transmitted + UInt32.ofNat sent.length
        expired := bus.stats.expired + UInt32.ofNat dropped.length } ∧
    run.bus.queue = bus.queue ∧ run.bus.lineHome = true ∧ run.bus.window.bytes = [] ∧
    ∀ frame : Frame, ∃ trailer : Bytes, trailer.length = trailerSize ∧
      (frame.withTtl (frame.ttl - 1)).wire .checksum =
        ((frame.wire .checksum).take (frame.wireSize - trailerSize)).set 5 (frame.ttl - 1) ++ trailer := by
  intro bus run handed sent dropped
  have plain : bus.window.Plain := ⟨rfl, rfl⟩
  have settles := @settles_wires bus ⟨rfl, rfl⟩ plain rfl alive frames 0
  obtain ⟨_, _, cleared, stats⟩ := Window.feedFrom_wires plain rfl frames 0
  rw [← settles.window] at cleared stats
  have counted : run.bus.stats =
      { bus.stats with
        delivered := bus.stats.delivered + UInt32.ofNat handed.length
        forwarded := bus.stats.forwarded + UInt32.ofNat sent.length
        transmitted := bus.stats.transmitted + UInt32.ofNat sent.length
        expired := bus.stats.expired + UInt32.ofNat dropped.length } := by
    rw [Bus.stats, settles.counters, stats]
    rfl
  refine ⟨Frame.encode_checksum, settles.heard, settles.carried, counted, settles.ready.queue, settles.ready.line,
    cleared, ?_⟩
  intro frame
  exact ⟨_, Checksum.length_trailerFor _, frame.wire_withTtl (frame.ttl - 1)⟩

end Bus

end Hopline
