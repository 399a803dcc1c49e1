import Hopline.Command.Simulate
import Hopline.Proofs.Ring.Rounds

/-! What a simulation reports. The message goes round the ring device by device, so its distance and
its budget decide where it ends, who has counted it and when the ring is still. -/

namespace Hopline.Command

/-- The last device, whose bytes go to the first one, has sent some. -/
def SimulationReport.LastSends (report : SimulationReport) : Prop :=
  ∃ device ∈ report.devices, device.device + 1 = report.devices.length ∧ device.stats.transmitted ≠ 0

namespace Simulation

open Hopline.Ring Text

variable {n : Nat} {simulation : Simulation n}

/-- The node of each device. -/
def nodes (simulation : Simulation n) : Placement n := fun device => ⟨[⟨simulation.addressOf device, device.val⟩]⟩

/-- Every node has an address of its own, and the message can be sent. -/
structure Sound (simulation : Simulation n) : Prop where
  addresses : simulation.baseAddress.toNat + n ≤ 0x10000
  fits : simulation.payload.length ≤ maxPayload
  fresh : simulation.ttl ≠ 0
  policy : simulation.sync = .headOnly

theorem Sound.addressOf_injective (sound : simulation.Sound) : Function.Injective simulation.addressOf := by
  have place (device : Fin n) : (simulation.addressOf device).toNat = simulation.baseAddress.toNat + device.val := by
    have bound := sound.addresses
    have inside := device.isLt
    have small : device.val < 2 ^ 16 := by omega
    rw [addressOf, UInt16.toNat_add, UInt16.toNat_ofNat_of_lt' small]
    apply Nat.mod_eq_of_lt
    omega
  intro first second same
  have places := congrArg UInt16.toNat same
  rw [place, place] at places
  exact Fin.ext (Nat.add_left_cancel places)

theorem Sound.node?_nodes (sound : simulation.Sound) (target device : Fin n) :
    simulation.nodes.node? (simulation.addressOf target) device = if device = target then some device.val else none := by
  have same : (simulation.addressOf device == simulation.addressOf target) = decide (device = target) := by
    rw [beq_eq_decide]
    exact decide_eq_decide.mpr sound.addressOf_injective.eq_iff
  rw [Placement.node?_eq, nodes, List.find?_cons, same]
  by_cases here : device = target
  · rw [if_pos here, decide_eq_true here]
    rfl
  · rw [if_neg here, decide_eq_false here]
    rfl

theorem Sound.ring_eq (sound : simulation.Sound) : simulation.ring = simulation.nodes.ring := by
  have config : simulation.config = .standard := by
    rw [Simulation.config, sound.policy]
    rfl
  unfold Simulation.ring Placement.ring Simulation.bus
  rw [config]
  rfl

theorem Sound.payload_le (sound : simulation.Sound) : simulation.message.payload.length ≤ maxPayload := by
  unfold message
  dsimp only
  split
  next => decide
  next => exact sound.fits

/-- The way of the message. -/
def Sound.journey (sound : simulation.Sound) : Journey n :=
  { start := simulation.source
    frame := { simulation.message with payload_le := sound.payload_le }
    fresh := sound.fresh }

theorem Sound.goal_journey (sound : simulation.Sound) : sound.journey.goal simulation.nodes =
    some (distance simulation.source simulation.destination, simulation.destination.val) := by
  apply Placement.nearest?_eq_some.mpr
  refine ⟨distance_lt _ _, ?_, ?_⟩
  · have there : ahead sound.journey.start (distance simulation.source simulation.destination) = simulation.destination :=
      ahead_distance _ _
    rw [there]
    exact (sound.node?_nodes simulation.destination simulation.destination).trans (if_pos rfl)
  · intro earlier before
    refine (sound.node?_nodes simulation.destination _).trans (if_neg ?_)
    intro there
    have near := distance_lt simulation.source simulation.destination
    have same := ahead_inj (before.trans near) near (there.trans (ahead_distance _ _).symm)
    exact Nat.ne_of_lt before same

/-- The ring comes to rest with the message as far as it can come. -/
theorem Sound.exists_run (sound : simulation.Sound) (enough : 3 ≤ simulation.maxSteps) :
    ∃ (scheduler : Scheduler (Ring n)) (settled : Settled n), Ring.scheduler n = .ok scheduler ∧
      simulation.run = .ok (simulation.report settled) ∧ settled.steps = sound.journey.steps simulation.nodes ∧
      RestsAfter scheduler (simulation.ring.signal simulation.source simulation.message).1 settled.steps ∧
      sound.journey.Reached simulation.nodes (sound.journey.transmissions simulation.nodes) settled.ring := by
  let journey := sound.journey
  obtain ⟨scheduler, built, eager, listeners⟩ := exists_scheduler n
  have found := sound.goal_journey
  obtain ⟨rests, there⟩ := Journey.rests eager listeners found
  have reached := Journey.reached_rounds found (journey.steps simulation.nodes)
  rw [there, ← stepped_rounds eager listeners] at reached
  have count : journey.steps simulation.nodes ≤ simulation.maxSteps := by
    have few : journey.steps simulation.nodes ≤ 3 := by
      unfold Journey.steps
      split
      next => decide
      next => split <;> decide
    exact few.trans enough
  let started := (simulation.nodes.ring.signal simulation.source simulation.message).1
  let settled : Settled n :=
    { ring := (stepped scheduler started (journey.steps simulation.nodes)).2
      steps := journey.steps simulation.nodes }
  have still : started.settle simulation.maxSteps scheduler = settled := settle_of_rests rests count
  have sent : simulation.nodes.ring.signal simulation.source simulation.message = (started, .ok ()) :=
    Prod.ext rfl (journey.signal_ok simulation.nodes)
  refine ⟨scheduler, settled, built, ?_, rfl, ?_, reached⟩
  · unfold run
    simp only [built, sound.ring_eq, sent, still, Except.mapError, bind, Except.bind, pure, Except.pure]
  · rw [sound.ring_eq]
    exact rests

/-- The hops that the message has to make. -/
def hops (simulation : Simulation n) : Nat := distance simulation.source simulation.destination

/-- What is reported of a message that has so many hops to make. -/
structure Crossed (simulation : Simulation n) (report : SimulationReport) : Prop where
  arrived : simulation.hops ≤ simulation.ttl.toNat → ∃ frame : Frame,
    report.deliveries = [⟨simulation.destination.val, simulation.destination.val, frame⟩] ∧
    frame.source = simulation.addressOf simulation.source ∧
    frame.destination = simulation.addressOf simulation.destination ∧
    frame.payload = (if simulation.payload.isEmpty then utf8Bytes "hello" else simulation.payload) ∧
    frame.ttl.toNat =
      if simulation.hops = 0 then simulation.ttl.toNat else simulation.ttl.toNat - simulation.hops + 1
  lost : simulation.ttl.toNat < simulation.hops → report.deliveries = []
  delivered : report.delivered = decide (simulation.hops ≤ simulation.ttl.toNat)
  transmitted : (report.devices.map fun device => device.stats.transmitted.toNat).sum =
    min simulation.hops simulation.ttl.toNat
  expired : (report.devices.map fun device => device.stats.expired.toNat).sum =
    if simulation.ttl.toNat < simulation.hops then 1 else 0
  rejected : (report.devices.map fun device => device.stats.rejected.toNat).sum = 0
  around : report.LastSends ↔ n ≤ simulation.source.val + min simulation.hops simulation.ttl.toNat
  home : simulation.hops = 0 → report.steps = 1
  wrapped : simulation.hops ≠ 0 → simulation.source.val + 1 < n ∧ report.LastSends → report.steps = 3
  straight : simulation.hops ≠ 0 → ¬ (simulation.source.val + 1 < n ∧ report.LastSends) → report.steps = 2

section Report

variable {settled : Settled n}

theorem Sound.lastSends_iff (sound : simulation.Sound)
    (reached : sound.journey.Reached simulation.nodes (sound.journey.transmissions simulation.nodes) settled.ring) :
    (simulation.report settled).LastSends ↔
      n ≤ simulation.source.val + sound.journey.transmissions simulation.nodes := by
  have length : (simulation.report settled).devices.length = n := by
    rw [report, List.length_map, List.length_finRange]
  have inside := simulation.source.isLt
  have counted {device : Fin n} (last : device.val + 1 = n) :
      (settled.ring.bus device).counters.transmitted ≠ 0 ↔
        n ≤ simulation.source.val + sound.journey.transmissions simulation.nodes := by
    have place : distance simulation.source device = n - 1 - simulation.source.val := distance_last last
    have tally := (reached.tally sound.goal_journey (distance_lt simulation.source device)).1
    have there : ahead sound.journey.start (distance simulation.source device) = device := ahead_distance _ _
    rw [there, place] at tally
    rw [ne_eq, ← UInt32.toNat_inj, tally]
    split
    next before =>
      refine ⟨fun _ => ?_, fun _ => Nat.one_ne_zero⟩
      omega
    next beyond =>
      refine ⟨fun busy => absurd rfl busy, fun around => ?_⟩
      omega
  rw [SimulationReport.LastSends, length]
  constructor
  · rintro ⟨device, member, last, busy⟩
    obtain ⟨place, -, rfl⟩ := List.mem_map.mp member
    exact (counted last).mp busy
  · intro around
    let device : Fin n := ⟨n - 1, by omega⟩
    have last : device.val + 1 = n := by
      show n - 1 + 1 = n
      omega
    exact ⟨_, List.mem_map.mpr ⟨device, List.mem_finRange device, rfl⟩, last, (counted last).mpr around⟩

theorem Sound.crossed (sound : simulation.Sound) (steps : settled.steps = sound.journey.steps simulation.nodes)
    (reached : sound.journey.Reached simulation.nodes (sound.journey.transmissions simulation.nodes) settled.ring) :
    simulation.Crossed (simulation.report settled) := by
  have found : sound.journey.goal simulation.nodes = some (simulation.hops, simulation.destination.val) :=
    sound.goal_journey
  have sendings : sound.journey.transmissions simulation.nodes = min simulation.hops simulation.ttl.toNat :=
    Journey.transmissions_eq found
  have positive : 0 < simulation.ttl.toNat := sound.journey.ttl_pos
  have target : ahead simulation.source simulation.hops = simulation.destination := ahead_distance _ _
  have arrived (enough : simulation.hops ≤ simulation.ttl.toNat) : settled.ring.deliveries =
      [⟨simulation.destination.val, simulation.destination.val, sound.journey.arriving simulation.hops⟩] := by
    rw [reached.deliveries_arrived found enough, ← target]
    rfl
  have same := sound.journey.toMessage_arriving simulation.hops
  constructor
  case arrived =>
    intro enough
    refine ⟨sound.journey.arriving simulation.hops, arrived enough, ?_, ?_, ?_, ?_⟩
    · exact congrArg Message.source same
    · exact congrArg Message.destination same
    · exact congrArg Message.payload same
    · have left := @Journey.toNat_ttl_arriving n sound.journey simulation.hops
      refine left.trans ?_
      show simulation.ttl.toNat - (simulation.hops - 1) = _
      split <;> omega
  case lost => exact reached.deliveries_expired found
  case delivered =>
    show settled.ring.deliveries.any _ = _
    rcases Nat.lt_or_ge simulation.ttl.toNat simulation.hops with short | enough
    · rw [reached.deliveries_expired found short, decide_eq_false (Nat.not_le.mpr short)]
      rfl
    · rw [arrived enough, decide_eq_true enough, List.any_cons, List.any_nil, Bool.or_false]
      have addressed := congrArg Message.destination same
      exact beq_iff_eq.mpr addressed
  case transmitted =>
    rw [← sendings, ← reached.sum_transmitted found, report, List.map_map]
    rfl
  case expired =>
    have sum := reached.sum_expired found
    rw [report, List.map_map]
    exact sum
  case rejected =>
    apply List.sum_eq_zero
    intro count member
    rw [report, List.map_map] at member
    obtain ⟨device, -, rfl⟩ := List.mem_map.mp member
    exact congrArg UInt32.toNat (reached.calm device).rejected
  case around => exact sendings ▸ sound.lastSends_iff reached
  case home =>
    intro nowhere
    show settled.steps = 1
    rw [steps, Journey.steps, sendings, nowhere, Nat.zero_min]
    rfl
  case wrapped =>
    rintro away ⟨inside, last⟩
    have wraps : sound.journey.Wraps simulation.nodes := ⟨inside, (sound.lastSends_iff reached).mp last⟩
    show settled.steps = 3
    rw [steps, Journey.steps, if_neg (by omega), if_pos wraps]
  case straight =>
    intro away apart
    have never : ¬ sound.journey.Wraps simulation.nodes := by
      rintro ⟨inside, around⟩
      exact apart ⟨inside, (sound.lastSends_iff reached).mpr around⟩
    show settled.steps = 2
    rw [steps, Journey.steps, if_neg (by omega), if_neg never]

end Report

end Simulation

namespace SimulatePlan

open Simulation

variable {plan : SimulatePlan} {environment : Environment} {payload : Bytes}

/-- The simulation of a plan whose two devices exist. -/
def simulation (plan : SimulatePlan) (source : plan.source < plan.devices) (target : plan.target < plan.devices)
    (payload : Bytes) : Simulation plan.devices :=
  { source := ⟨plan.source, source⟩
    destination := ⟨plan.target, target⟩
    baseAddress := plan.baseAddress
    ttl := plan.ttl
    sync := plan.sync
    maxSteps := plan.maxSteps
    payload }

/-- A message with a budget for its hops arrives, once and whole; any other is lost at the device where its budget
ends. The ring is still after at most three steps. -/
theorem crosses_the_ring (source : plan.source < plan.devices) (target : plan.target < plan.devices)
    (addresses : plan.baseAddress.toNat + plan.devices - 1 ≤ 0xFFFF) (budget : 1 ≤ plan.ttl)
    (policy : plan.sync = .headOnly) (enough : 3 ≤ plan.maxSteps)
    (given : plan.payload.read environment = .ok payload) (fits : payload.length ≤ maxPayload) :
    let simulation := plan.simulation source target payload
    ∃ (scheduler : Scheduler (Ring plan.devices)) (report : SimulationReport),
      plan.prepare environment = .ok simulation ∧ Ring.scheduler plan.devices = .ok scheduler ∧
      simulation.run = .ok report ∧ simulation.Crossed report ∧
      Ring.RestsAfter scheduler (simulation.ring.signal simulation.source simulation.message).1 report.steps ∧
      ∀ format, plan.execute environment format =
        .ok ⟨if simulation.hops ≤ plan.ttl.toNat then .success else .failure, report.print format⟩ := by
  intro simulation
  have fresh : plan.ttl ≠ 0 := by
    intro spent
    rw [spent] at budget
    exact absurd budget (by decide)
  have bound : plan.baseAddress.toNat + plan.devices ≤ 0x10000 := by omega
  have sound : simulation.Sound := ⟨bound, fits, fresh, policy⟩
  obtain ⟨scheduler, settled, built, ran, steps, rests, reached⟩ := sound.exists_run enough
  have crossed := sound.crossed steps reached
  have prepared : plan.prepare environment = .ok simulation := by
    unfold prepare
    rw [dif_pos ⟨source, target⟩, if_neg (Nat.not_lt.mpr bound), given]
    rfl
  refine ⟨scheduler, _, prepared, built, ran, crossed, rests, ?_⟩
  intro format
  have code : (outcome (simulation.report settled) format).code =
      if simulation.hops ≤ plan.ttl.toNat then .success else .failure := by
    rw [outcome, crossed.delivered]
    exact if_congr decide_eq_true_iff rfl rfl
  simp only [execute, prepared, ran, bind, Except.bind, pure, Except.pure]
  rw [← code]
  rfl

/-- Three hops on a ring of four, from the third device by way of the last one to the second. -/
theorem crosses_the_ring_around :
    let plan : SimulatePlan :=
      { devices := 4, source := 2, destination := some 1, baseAddress := 0x0100, ttl := 8, sync := .headOnly,
        maxSteps := 10, payload := .file "note" }
    let environment := Environment.supplying (.ok [0x00, 0xFF, 0x41])
    ∃ (report : SimulationReport) (frame : Frame),
      plan.execute environment .raw = .ok ⟨.success, report.print .raw⟩ ∧ report.deliveries = [⟨1, 1, frame⟩] ∧
      frame.payload = [0x00, 0xFF, 0x41] ∧ frame.ttl.toNat = 6 ∧ report.steps = 3 := by
  intro plan environment
  have given : plan.payload.read environment = .ok [0x00, 0xFF, 0x41] := rfl
  obtain ⟨scheduler, report, -, -, -, crossed, -, executed⟩ :=
    @crosses_the_ring plan environment _ (by decide) (by decide) (by decide) (by decide) rfl (by decide) given
      (by decide)
  obtain ⟨frame, delivered, -, -, payload, ttl⟩ := crossed.arrived (by decide)
  have around : report.LastSends := crossed.around.mpr (by decide)
  exact ⟨report, frame, executed .raw, delivered, payload, ttl, crossed.wrapped (by decide) ⟨by decide, around⟩⟩

end SimulatePlan

end Hopline.Command
