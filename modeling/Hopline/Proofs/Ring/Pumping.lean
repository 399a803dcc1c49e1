import Hopline.Proofs.Bus.Relay
import Hopline.Proofs.Ring.Ledger
import Hopline.Proofs.Schedule.Eager

/-! A ring that is pumped. In its turn a device hears all that is on the link before it, as if the bytes
came in one run; a step gives every device its turn; and the ring comes to rest with the first step in
which no byte moves. -/

namespace Hopline.Ring

variable {n : Nat}

theorem next_previous (device : Fin n) : next (previous device) = device := by
  have inside := device.isLt
  have round : device.val + (n - 1) + 1 = device.val + n := by omega
  apply Fin.ext
  show ((device.val + (n - 1)) % n + 1) % n = device.val
  rw [Nat.mod_add_mod, round, Nat.add_mod_right, Nat.mod_eq_of_lt inside]

/-- Between the two rings nothing happens but that `device` hears the bytes. -/
structure Hears (device : Fin n) (bytes : Bytes) (before after : Ring n) : Prop where
  waiting : before.link (previous device) = bytes ++ after.link (previous device)
  bus : after.bus = Function.update before.bus device ((before.bus device).listenQuietly everyone bytes).bus
  outgoing : after.link device = before.link device ++ ((before.bus device).listenQuietly everyone bytes).carried
  others : ∀ other, other ≠ device → other ≠ previous device → after.link other = before.link other
  deliveries : after.deliveries = before.deliveries ++
    ((before.bus device).listenQuietly everyone bytes).heard.map fun (handler, frame) => ⟨device.val, handler, frame⟩
  moved : after.moved = before.moved + bytes.length

variable {device : Fin n} {front back bytes rest : Bytes} {byte : UInt8} {before middle after ring : Ring n}

theorem Hears.refl (device : Fin n) (ring : Ring n) : Hears device [] ring ring :=
  { waiting := rfl
    bus := (Function.update_eq_self device ring.bus).symm
    outgoing := (List.append_nil _).symm
    others := fun _ _ _ => rfl
    deliveries := (List.append_nil _).symm
    moved := rfl }

theorem Hears.trans (first : Hears device front before middle) (later : Hears device back middle after) :
    Hears device (front ++ back) before after := by
  have here : middle.bus device = ((before.bus device).listenQuietly everyone front).bus := by
    rw [first.bus, Function.update_self]
  have joined := (before.bus device).listenQuietly_append everyone front back
  have onward := later.bus
  have sent := later.outgoing
  have heard := later.deliveries
  rw [here] at onward sent heard
  constructor
  case waiting => rw [first.waiting, later.waiting, List.append_assoc]
  case bus => rw [onward, first.bus, Function.update_idem, joined]
  case outgoing => rw [sent, first.outgoing, joined, List.append_assoc]
  case others =>
    intro other apart beyond
    rw [later.others other apart beyond, first.others other apart beyond]
  case deliveries => rw [heard, first.deliveries, joined, List.map_append, List.append_assoc]
  case moved => rw [later.moved, first.moved, List.length_append, Nat.add_assoc]

theorem hears_transfer (apart : previous device ≠ device) (waiting : ring.link (previous device) = byte :: rest) :
    Hears device [byte] ring (ring.transfer (previous device)) := by
  have moved := ring.transfer_eq_absorb waiting
  rw [next_previous] at moved
  rw [moved]
  have link : ((ring.overhear (previous device) byte rest).absorb device
      ((ring.bus device).ingestQuietly everyone byte)).link =
      Function.update (Function.update ring.link (previous device) rest) device
        (ring.link device ++ ((ring.bus device).ingestQuietly everyone byte).carried) := by
    rw [link_absorb, link_overhear, Function.update_of_ne apart.symm]
  constructor
  case waiting =>
    rw [link, Function.update_of_ne apart, Function.update_self, waiting]
    rfl
  case bus =>
    rw [bus_absorb, bus_overhear, next_previous, Function.update_idem]
    rfl
  case outgoing =>
    rw [link, Function.update_self]
    exact congrArg (ring.link device ++ ·) (List.append_nil _).symm
  case others =>
    intro other apart beyond
    rw [link, Function.update_of_ne apart, Function.update_of_ne beyond]
  case deliveries =>
    exact congrArg (fun heard => ring.deliveries ++ List.map _ heard) (List.append_nil _).symm
  case moved => rfl

/-- Lets a device hear all that is on the link before it. -/
def listen (ring : Ring n) (device : Fin n) : Ring n := pump device (ring.pumpBound device) ring

theorem pump_of_silent (silent : ring.link (previous device) = []) (bound : Nat) : pump device bound ring = ring := by
  cases bound with
  | zero => rfl
  | succ bound => exact if_pos (List.isEmpty_iff.mpr silent)

theorem hears_pump (apart : previous device ≠ device) {bound : Nat} (waiting : ring.link (previous device) = bytes)
    (enough : bytes.length ≤ bound) : Hears device bytes ring (pump device bound ring) := by
  -- on the bytes: what the device sends goes onto another link, so each transfer leaves the rest of them
  induction bytes generalizing ring bound with
  | nil =>
    rw [pump_of_silent waiting bound]
    exact .refl device ring
  | cons byte rest ih =>
    obtain ⟨left, rfl⟩ : ∃ left, bound = left + 1 := Nat.exists_eq_succ_of_ne_zero (Nat.ne_zero_of_lt enough)
    have first := hears_transfer apart waiting
    have onward : (ring.transfer (previous device)).link (previous device) = rest := by
      have split := waiting.symm.trans first.waiting
      exact (List.cons.inj split).2.symm
    have busy : ¬ (ring.link (previous device)).isEmpty = true := by
      rw [waiting]
      exact Bool.false_ne_true
    rw [pump, if_neg busy]
    exact first.trans (ih onward (Nat.le_of_succ_le_succ enough))

theorem listen_of_silent (silent : ring.link (previous device) = []) : ring.listen device = ring :=
  pump_of_silent silent _

theorem hears_listen (apart : previous device ≠ device) (ring : Ring n) :
    Hears device (ring.link (previous device)) ring (ring.listen device) := by
  apply hears_pump apart rfl
  unfold pumpBound
  omega

/-- Lets every device listen in turn. -/
def round (ring : Ring n) : Ring n := (List.finRange n).foldl listen ring

theorem exists_addListeners {scheduler : Scheduler (Ring n)} (devices : List (Fin n))
    (room : scheduler.slots.length + devices.length ≤ scheduler.maxModules) :
    ∃ last, addListeners scheduler devices = .ok last ∧ last.units = scheduler.units ++ devices.map listener ∧
      last.dependencies = scheduler.dependencies ++ List.replicate devices.length [] := by
  induction devices generalizing scheduler with
  | nil => exact ⟨scheduler, rfl, (List.append_nil _).symm, (List.append_nil _).symm⟩
  | cons device rest ih =>
    rw [List.length_cons] at room
    let slot : Schedule.Slot (Ring n) :=
      { unit := listener device, ready := false, lastInit := none, lastPoll := none }
    let more : Scheduler (Ring n) :=
      { scheduler with
        slots := scheduler.slots ++ [slot]
        dependencies := scheduler.dependencies ++ [[]] }
    have added : scheduler.add (listener device) = (more, .ok scheduler.slots.length) := if_neg (by omega)
    have count : more.slots.length = scheduler.slots.length + 1 := List.length_append
    obtain ⟨last, done, units, dependencies⟩ := @ih more (by
      rw [count]
      show scheduler.slots.length + 1 + rest.length ≤ scheduler.maxModules
      omega)
    refine ⟨last, ?_, ?_, ?_⟩
    · rw [addListeners, added]
      exact done
    · have own : more.units = scheduler.units ++ [listener device] := List.map_append
      rw [units, own, List.append_assoc]
      rfl
    · rw [dependencies, List.append_assoc]
      rfl

/-- The scheduler of a ring polls every device in every step. -/
theorem exists_scheduler (n : Nat) :
    ∃ scheduler, Ring.scheduler n = .ok scheduler ∧ scheduler.Eager ∧
      scheduler.units = (List.finRange n).map listener := by
  have room : (Scheduler.empty n : Scheduler (Ring n)).slots.length + (List.finRange n).length ≤
      (Scheduler.empty n : Scheduler (Ring n)).maxModules := by
    rw [List.length_finRange]
    exact (Nat.zero_add n).le
  obtain ⟨scheduler, added, units, dependencies⟩ := exists_addListeners (List.finRange n) room
  have units : scheduler.units = (List.finRange n).map listener := units
  have dependencies : scheduler.dependencies = List.replicate (List.finRange n).length [] := dependencies
  have listening : ∀ unit ∈ scheduler.units, ∃ device, listener device = unit := by
    intro unit member
    rw [units] at member
    obtain ⟨device, -, same⟩ := List.mem_map.mp member
    exact ⟨device, same⟩
  refine ⟨scheduler, added, ?_, units⟩
  constructor
  case alone =>
    intro id
    apply List.eq_nil_iff_forall_not_mem.mpr
    intro needed edge
    rw [dependencies] at edge
    exact Schedule.Graph.not_edge_replicate edge
  case always =>
    intro unit member
    obtain ⟨device, rfl⟩ := listening unit member
    exact fun _ => rfl
  case atOnce =>
    intro unit member
    obtain ⟨device, rfl⟩ := listening unit member
    exact fun _ => rfl
  case unseen => exact fun _ _ => rfl

variable {scheduler : Scheduler (Ring n)}

theorem step_round (eager : scheduler.Eager) (listeners : scheduler.units = (List.finRange n).map listener)
    (ring : Ring n) (ticks : UInt32) : (scheduler.step ring ticks).world = ring.round := by
  obtain ⟨polled, -⟩ := eager.step ring ticks
  rw [polled, listeners, Scheduler.pollAll, List.foldl_map]
  rfl

/-- The scheduler and the ring after some steps. -/
def stepped (scheduler : Scheduler (Ring n)) (ring : Ring n) : Nat → Scheduler (Ring n) × Ring n
  | 0 => (scheduler, ring)
  | steps + 1 =>
    let earlier := stepped scheduler ring steps
    let pass := earlier.1.step earlier.2 (UInt32.ofNat steps)
    (pass.scheduler, pass.world)

/-- The last of some steps moves no byte, and every one before it moves some. -/
structure RestsAfter (scheduler : Scheduler (Ring n)) (ring : Ring n) (steps : Nat) : Prop where
  busy : ∀ earlier, earlier + 1 < steps →
    (stepped scheduler ring (earlier + 1)).2.moved ≠ (stepped scheduler ring earlier).2.moved
  still : ∃ earlier, steps = earlier + 1 ∧
    (stepped scheduler ring (earlier + 1)).2.moved = (stepped scheduler ring earlier).2.moved

theorem settleFrom_of_rests {steps : Nat} (rests : RestsAfter scheduler ring steps) (left earlier : Nat)
    (before : earlier < steps) (enough : steps ≤ earlier + left) :
    settleFrom left earlier (stepped scheduler ring earlier).1 (stepped scheduler ring earlier).2 =
      { ring := (stepped scheduler ring steps).2, steps } := by
  induction left generalizing earlier with
  | zero => exact absurd (Nat.lt_of_lt_of_le before enough) (Nat.lt_irrefl _)
  | succ left ih =>
    obtain ⟨last, rfl, still⟩ := rests.still
    rw [settleFrom]
    rcases Nat.eq_or_lt_of_le (Nat.le_of_lt_succ before) with rfl | further
    · exact if_pos still
    · have busy := rests.busy earlier (Nat.succ_lt_succ further)
      refine (if_neg busy).trans ?_
      apply ih (earlier + 1)
      · exact Nat.succ_lt_succ further
      · omega

/-- Settling stops where the ring comes to rest. -/
theorem settle_of_rests {steps maxSteps : Nat} (rests : RestsAfter scheduler ring steps) (enough : steps ≤ maxSteps) :
    ring.settle maxSteps scheduler = { ring := (stepped scheduler ring steps).2, steps } := by
  obtain ⟨last, same, -⟩ := rests.still
  apply settleFrom_of_rests rests maxSteps 0
  · omega
  · omega

theorem stepped_rounds (eager : scheduler.Eager) (listeners : scheduler.units = (List.finRange n).map listener)
    (ring : Ring n) (steps : Nat) : (stepped scheduler ring steps).2 = round^[steps] ring := by
  have kept : (stepped scheduler ring steps).1.Eager ∧
      (stepped scheduler ring steps).1.units = (List.finRange n).map listener ∧
      (stepped scheduler ring steps).2 = round^[steps] ring := by
    induction steps with
    | zero => exact ⟨eager, listeners, rfl⟩
    | succ steps ih =>
      obtain ⟨eager, listeners, reached⟩ := ih
      let earlier := stepped scheduler ring steps
      obtain ⟨-, units, still⟩ := eager.step earlier.2 (UInt32.ofNat steps)
      refine ⟨still, units.trans listeners, ?_⟩
      rw [Function.iterate_succ_apply', ← reached]
      exact step_round eager listeners earlier.2 (UInt32.ofNat steps)
  exact kept.2.2

end Hopline.Ring
