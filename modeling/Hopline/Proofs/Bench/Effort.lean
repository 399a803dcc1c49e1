import Mathlib.Algebra.BigOperators.Fin
import Mathlib.Algebra.Order.BigOperators.Group.Finset
import Mathlib.Algebra.Order.BigOperators.Group.List
import Hopline.Proofs.Bench.Nesting
import Hopline.Proofs.Bus.Quiet
import Hopline.Proofs.Bus.SingleDrainer

/-! What is left to do on a bench, as a number of steps. Each turn of a call brings it down, the bytes that the call may
queue included, and it is never more than the steps that a bench takes. -/

namespace Hopline

open Bench

theorem sum_map_modify {α : Type} {items : List α} {place : Nat} {item : α} (weight : α → Nat) (change : α → α)
    (here : items[place]? = some item) :
    ((items.modify place change).map weight).sum + weight item = (items.map weight).sum + weight (change item) := by
  induction items generalizing place with
  | nil => cases here
  | cons first rest ih =>
    cases place with
    | zero =>
      cases here
      rw [List.modify_zero_cons, List.map_cons, List.map_cons, List.sum_cons, List.sum_cons]
      omega
    | succ place =>
      have later := ih (List.getElem?_cons_succ.symm.trans here)
      rw [List.modify_succ_cons, List.map_cons, List.map_cons, List.sum_cons, List.sum_cons]
      omega

theorem sum_map_modify_of_same {α : Type} (items : List α) (place : Nat) {weight : α → Nat} {change : α → α}
    (same : ∀ item, weight (change item) = weight item) :
    ((items.modify place change).map weight).sum = (items.map weight).sum := by
  cases here : items[place]? with
  | none => rw [List.modify_eq_self (List.getElem?_eq_none_iff.mp here)]
  | some item =>
    have changed := sum_map_modify weight change here
    rw [same] at changed
    exact Nat.add_right_cancel changed

namespace Call

/-- The steps that a call still takes itself, and those for a frame that it may queue. Those for the bytes that are in
the queue come on top. -/
def duty : Call → Nat
  | .returned _ => 1
  | .handled .. | .stranded .. | .discarding .. | .releasing .. => 2
  | .failing .. | .returning .. => 3
  | .draining .. => 4
  | .claiming .. | .handling .. => 5
  | .sending .. => 6
  | .queueing .. => 3 * maxFrame + 6
  | .routing .. => 3 * maxFrame + 7
  | .hearing _ => 3 * maxFrame + 8

/-- True of a call that has found the queue empty and is about to give it up. -/
def givesUp : Call → Bool
  | .returning .. | .releasing .. => true
  | _ => false

variable {call : Call}

theorem duty_pos (call : Call) : 0 < call.duty := by
  cases call <;> exact Nat.succ_pos _

theorem duty_le (call : Call) : call.duty ≤ 3 * maxFrame + 8 := by
  unfold duty
  split <;> omega

theorem holdsLine_of_apart (apart : call.drains = false) : call.holdsLine = false := by
  cases call <;> first | rfl | cases apart

theorem givesUp_of_apart (apart : call.drains = false) : call.givesUp = false := by
  cases call <;> first | rfl | cases apart

/-- Whatever the line answers, the call keeps it for now. -/
theorem afterLine_sending (origin : Origin) (frame : Frame) (sent : Nat) (byte : UInt8)
    (answer : Except LineError Unit) :
    let next := (Call.sending origin frame sent byte).afterLine answer
    next.holdsLine = true ∧ next.givesUp = false ∧ next.duty ≤ 4 := by
  cases answer with
  | ok taken => exact ⟨rfl, rfl, Nat.le_refl 4⟩
  | error error => exact ⟨rfl, rfl, Nat.le_succ 3⟩

end Call

/-- What the turn of a call costs a bus. The line is not in two hands afterwards if it was not before. -/
structure Bus.Spends (bus : Bus) (call : Call) (turn : Turn) : Prop where
  less : turn.call.duty + 3 * turn.bus.queue.length < call.duty + 3 * bus.queue.length
  line : call.holdsLine.toNat + bus.lineHome.toNat ≤ 1 →
    turn.call.holdsLine.toNat + turn.bus.lineHome.toNat ≤ call.holdsLine.toNat + bus.lineHome.toNat
  spent : turn.call.givesUp = true → turn.bus.queue.bytes = []

namespace Bus

variable {bus : Bus} {call : Call} {turn : Turn} {alive : HandlerId → Bool}

theorem Spends.of_line (line : turn.bus.lineHome = bus.lineHome) (off : turn.call.holdsLine = false)
    (goes : turn.call.givesUp = false)
    (less : turn.call.duty + 3 * turn.bus.queue.length < call.duty + 3 * bus.queue.length) :
    bus.Spends call turn := by
  constructor
  case less => exact less
  case line =>
    intro _
    rw [line, off, Bool.toNat_false, Nat.zero_add]
    exact Nat.le_add_left _ _
  case spent =>
    intro ends
    cases ends.symm.trans goes

theorem duty_settle (bus : Bus) (origin : Origin) (frame : Frame) (answer : Except FrameError Unit) :
    (bus.settle origin frame answer).call.duty = 1 := by
  cases answer <;> cases origin <;> rfl

theorem spends_settle {after : Bus} (events : List Event) (origin : Origin) (frame : Frame)
    (answer : Except FrameError Unit) (line : after.lineHome = bus.lineHome)
    (less : 1 + 3 * after.queue.length < call.duty + 3 * bus.queue.length) :
    bus.Spends call { after.settle origin frame answer with events } := by
  have apart := drains_settle after origin frame answer
  apply Spends.of_line
  · exact (lineHome_settle after origin frame answer).trans line
  · exact Call.holdsLine_of_apart apart
  · exact Call.givesUp_of_apart apart
  · dsimp only
    rw [duty_settle, queue_settle]
    exact less

theorem duty_route (bus : Bus) (alive : HandlerId → Bool) (origin : Origin) (frame : Frame) :
    (bus.route alive origin frame).call.duty ≤ 3 * maxFrame + 6 := by
  unfold route
  dsimp only
  split
  · exact Nat.le_add_left 5 _
  · exact Nat.le_refl _
  · split
    · exact Nat.le_add_left 1 _
    · split
      · exact Nat.le_add_left 5 _
      · split
        · exact Nat.le_add_left 1 _
        · exact Nat.le_refl _

theorem length_enqueue_le (queue : TransmitQueue) (frame : Frame) :
    (queue.enqueue frame).queue.length ≤ queue.length + maxFrame := by
  cases answer : (queue.enqueue frame).claimed with
  | error error =>
    rw [TransmitQueue.queue_of_refused answer]
    exact Nat.le_add_right _ _
  | ok claimed =>
    rw [(TransmitQueue.queue_of_accepted answer).1, TransmitQueue.length, List.length_append, frame.length_wire]
    exact Nat.add_le_add_left frame.wireSize_le _

theorem spends_queueing {origin : Origin} {frame : Frame}
    (advanced : bus.advance alive (.queueing origin frame) = some turn) : bus.Spends (.queueing origin frame) turn := by
  have longer := length_enqueue_le bus.queue frame
  unfold advance at advanced
  dsimp only at advanced
  generalize bus.queue.enqueue frame = result at longer advanced
  have less : 5 + 3 * result.queue.length < (Call.queueing origin frame).duty + 3 * bus.queue.length := by
    rw [Call.duty]
    omega
  have settled : 1 + 3 * result.queue.length < (Call.queueing origin frame).duty + 3 * bus.queue.length :=
    Nat.lt_of_le_of_lt (Nat.add_le_add_right (by decide) _) less
  split at advanced
  · cases advanced
    exact .of_line rfl rfl rfl less
  · cases advanced
    exact spends_settle _ origin frame _ rfl settled
  · cases advanced
    exact spends_settle _ origin frame _ rfl settled

theorem spends_advance (advanced : bus.advance alive call = some turn)
    (spent : call.givesUp = true → bus.queue.bytes = []) : bus.Spends call turn := by
  have less {duty least : Nat} (fewer : duty < least) :
      duty + 3 * bus.queue.length < least + 3 * bus.queue.length := Nat.add_lt_add_right fewer _
  cases call with
  | hearing byte =>
    cases advanced
    cases (bus.window.ingest byte).frame with
    | none => exact .of_line rfl rfl rfl (less (Nat.le_add_left 2 _))
    | some frame => exact .of_line rfl rfl rfl (less (Nat.lt_succ_self _))
  | routing origin frame =>
    cases advanced
    obtain ⟨queue, line, apart⟩ := bus.aside_route alive origin frame
    apply Spends.of_line line (Call.holdsLine_of_apart apart) (Call.givesUp_of_apart apart)
    rw [queue]
    exact less (Nat.lt_succ_of_le (bus.duty_route alive origin frame))
  | handled origin frame =>
    cases advanced
    exact .of_line rfl rfl rfl (less (Nat.lt_succ_self 1))
  | queueing origin frame => exact spends_queueing advanced
  | claiming origin frame =>
    cases home : bus.lineHome with
    | true =>
      rw [advance_claiming home] at advanced
      cases advanced
      constructor
      case less => exact less (Nat.lt_succ_self 4)
      case line =>
        intro _
        rw [home]
        exact Nat.le_refl 1
      case spent => exact nofun
    | false =>
      unfold advance at advanced
      rw [home] at advanced
      cases advanced
      exact .of_line rfl rfl rfl (less (show 2 < 5 by decide))
  | stranded origin frame | discarding origin frame =>
    cases advanced
    exact spends_settle _ origin frame _ rfl (Nat.lt_of_lt_of_le (Nat.lt_succ_self 1) (Nat.le_add_right _ _))
  | draining origin frame sent =>
    cases queued : bus.queue.bytes with
    | nil =>
      rw [advance_drained queued] at advanced
      cases advanced
      constructor
      case less => exact less (Nat.lt_succ_self 3)
      case line => exact fun _ => Nat.le_refl _
      case spent => exact fun _ => queued
    | cons byte rest =>
      rw [advance_draining queued] at advanced
      cases advanced
      constructor
      case less =>
        simp only [Call.duty, TransmitQueue.length, queued, List.length_cons]
        omega
      case line => exact fun _ => Nat.le_refl _
      case spent => exact nofun
  | failing origin frame sent error =>
    cases advanced
    constructor
    case less => exact less (Nat.lt_succ_self 2)
    case line => exact fun _ => Nat.le_add_right 1 _
    case spent => exact nofun
  | returning origin frame =>
    cases advanced
    constructor
    case less => exact less (Nat.lt_succ_self 2)
    case line => exact fun _ => Nat.le_add_right 1 _
    case spent => exact fun _ => spent rfl
  | releasing origin frame =>
    rw [advance_releasing (spent rfl)] at advanced
    cases advanced
    let after : Bus := { bus with queue := { bus.queue with draining := false } }
    exact @spends_settle bus _ after _ origin frame (.ok ()) rfl (less (Nat.lt_succ_self 1))
  | handling | sending | returned => cases advanced

end Bus

namespace Bench

/-- The steps that a task still takes itself, and those of the tasks that it makes. -/
def Task.duty : Task → Nat
  | .run _ call _ => call.duty
  | .transmit .. => 5
  | .handle .. | .leave .. => 1
  | task => task.cost

/-- The task goes on with a call that holds the line of the device. -/
def Task.holds (device : Nat) : Task → Bool
  | .run there call _ | .transmit there call _ => there == device && call.holdsLine
  | _ => false

/-- The task has the line of the device take a byte. What strikes meanwhile is on the list of tasks already. -/
def Task.transmits (device : Nat) : Task → Bool
  | .transmit there (.sending ..) _ => there == device
  | _ => false

def Task.givesUp : Task → Bool
  | .run _ call _ => call.givesUp
  | _ => false

/-- The task goes on with no call that has to do with a line. -/
def Task.Aside : Task → Prop
  | .run _ call _ => call.drains = false
  | .transmit .. => False
  | _ => True

/-- The steps for what strikes from a call to the line on. -/
def Device.strikes (found : Device) (first : Nat) : Nat :=
  ((found.interruptions.filter fun pair => first ≤ pair.1).map fun pair => pair.2.cost + 1).sum

/-- The tasks that come of what strikes during the next call to the line. -/
def Device.striking (device : Nat) (found : Device) : List Task :=
  (found.interruptions.filter fun pair => pair.1 == found.wire.attempts).map fun pair =>
    .interrupt device pair.1 pair.2

end Bench

/-- The steps that a device still makes necessary: for the bytes in its queue, and for what is yet to strike. -/
def Bench.burden (bench : Bench) (device : Nat) : Nat :=
  match bench.devices[device]? with
  | none => 0
  | some found =>
    3 * found.bus.queue.length +
      found.strikes (found.wire.attempts + bench.tasks.countP (Task.transmits device))

/-- At least as many steps as a bench needs. -/
def Bench.effort (bench : Bench) : Nat :=
  (bench.tasks.map Task.duty).sum + (bench.nodes.map Node.cost).sum +
    ∑ device ∈ Finset.range bench.devices.length, bench.burden device

namespace Bench

variable {device : Nat} {found : Device} {bench after : Bench} {task : Task} {tasks more : List Task}

theorem Task.duty_pos (task : Task) : 0 < task.duty := by
  cases task with
  | run device call report => exact call.duty_pos
  | _ => exact Nat.succ_pos _

theorem Task.Aside.holds (aside : task.Aside) (device : Nat) : task.holds device = false := by
  cases task with
  | run there call report => exact (congrArg _ (Call.holdsLine_of_apart aside)).trans (Bool.and_false _)
  | transmit => exact aside.elim
  | _ => rfl

theorem Task.Aside.transmits (aside : task.Aside) (device : Nat) : task.transmits device = false := by
  cases task with
  | transmit => exact aside.elim
  | _ => rfl

theorem Task.Aside.givesUp (aside : task.Aside) : task.givesUp = false := by
  cases task with
  | run there call report => exact Call.givesUp_of_apart aside
  | _ => rfl

theorem Device.aside_of_striking (member : task ∈ found.striking device) : task.Aside := by
  obtain ⟨pair, _, rfl⟩ := List.mem_map.mp member
  trivial

theorem Device.strikes_eq (device : Nat) (found : Device) : found.strikes found.wire.attempts =
    ((found.striking device).map Task.duty).sum + found.strikes (found.wire.attempts + 1) := by
  unfold strikes striking
  rw [List.map_map]
  induction found.interruptions with
  | nil => rfl
  | cons pair rest ih =>
    simp only [List.filter_cons, decide_eq_true_eq, beq_iff_eq]
    split <;> split <;> split <;>
      first | omega | (simp only [List.map_cons, List.sum_cons, Function.comp_apply, Task.duty, Task.cost]; omega)

theorem burden_of_present (present : bench.devices[device]? = some found) : bench.burden device =
    3 * found.bus.queue.length +
      found.strikes (found.wire.attempts + bench.tasks.countP (Task.transmits device)) := by
  rw [burden, present]

theorem burden_congr (devices : after.devices[device]? = bench.devices[device]?)
    (pending : after.tasks.countP (Task.transmits device) = bench.tasks.countP (Task.transmits device)) :
    after.burden device = bench.burden device := by
  rw [burden, burden, devices, pending]

/-- Only one device has changed, and the list of tasks. -/
theorem effort_change (bench after : Bench) (device : Nat) (length : after.devices.length = bench.devices.length)
    (nodes : after.nodes = bench.nodes) (others : ∀ other ≠ device, after.burden other = bench.burden other) :
    after.effort + bench.burden device + (bench.tasks.map Task.duty).sum =
      bench.effort + after.burden device + (after.tasks.map Task.duty).sum := by
  rw [effort, effort, nodes, length]
  by_cases inside : device ∈ Finset.range bench.devices.length
  · have same : ∑ other ∈ (Finset.range bench.devices.length).erase device, after.burden other =
        ∑ other ∈ (Finset.range bench.devices.length).erase device, bench.burden other :=
      Finset.sum_congr rfl fun other member => others other (Finset.ne_of_mem_erase member)
    rw [← Finset.sum_erase_add _ _ inside, ← Finset.sum_erase_add _ bench.burden inside]
    omega
  · have same : ∑ other ∈ Finset.range bench.devices.length, after.burden other =
        ∑ other ∈ Finset.range bench.devices.length, bench.burden other := by
      apply Finset.sum_congr rfl
      rintro other member
      apply others
      rintro rfl
      exact inside member
    have beyond : bench.devices.length ≤ device := Nat.le_of_not_lt fun less => inside (Finset.mem_range.mpr less)
    have before : bench.burden device = 0 := by rw [burden, List.getElem?_eq_none beyond]
    have later : after.burden device = 0 := by rw [burden, List.getElem?_eq_none (length ▸ beyond)]
    omega

/-- The first task has gone on, and only its device has changed. -/
theorem effort_after {next : Task} (split : bench.tasks = task :: tasks) (queued : after.tasks = next :: tasks)
    (length : after.devices.length = bench.devices.length) (nodes : after.nodes = bench.nodes)
    (beside : ∀ other ≠ device, after.devices[other]? = bench.devices[other]? ∧
      next.transmits other = task.transmits other) :
    after.effort + bench.burden device + task.duty = bench.effort + after.burden device + next.duty := by
  have others (other : Nat) (apart : other ≠ device) : after.burden other = bench.burden other := by
    obtain ⟨same, pending⟩ := beside other apart
    apply burden_congr same
    rw [queued, split, List.countP_cons, List.countP_cons, pending]
  have change := effort_change bench after device length nodes others
  rw [split, queued, List.map_cons, List.map_cons, List.sum_cons, List.sum_cons] at change
  omega

theorem effort_schedule (bench : Bench) (aside : ∀ task ∈ more, task.Aside) :
    (bench.schedule more).effort = bench.effort + (more.map Task.duty).sum := by
  have same (device : Nat) : (bench.schedule more).burden device = bench.burden device := by
    refine burden_congr rfl ?_
    have silent : more.countP (Task.transmits device) = 0 := by
      apply List.countP_eq_zero.mpr
      intro task member
      rw [(aside task member).transmits]
      exact Bool.false_ne_true
    rw [Bench.schedule, List.countP_append, silent, Nat.zero_add]
  have change := effort_change bench (bench.schedule more) 0 rfl rfl fun other _ => same other
  have tasks : ((bench.schedule more).tasks.map Task.duty).sum =
      (more.map Task.duty).sum + (bench.tasks.map Task.duty).sum := by
    rw [Bench.schedule, List.map_append, List.sum_append]
  rw [same] at change
  omega

theorem effort_setBus (present : bench.devices[device]? = some found) (bus : Bus) :
    (bench.setBus device bus).effort + 3 * found.bus.queue.length = bench.effort + 3 * bus.queue.length := by
  have others (other : Nat) (apart : other ≠ device) : (bench.setBus device bus).burden other = bench.burden other :=
    burden_congr (devices_setBus_of_ne apart.symm bus) rfl
  have change := effort_change bench (bench.setBus device bus) device (List.length_modify ..) rfl others
  have queued : (bench.setBus device bus).tasks = bench.tasks := rfl
  have strikes (first : Nat) : ({ found with bus } : Device).strikes first = found.strikes first := rfl
  rw [burden_of_present present, burden_of_present (devices_setBus present bus), queued, strikes] at change
  dsimp only at change
  omega

theorem effort_nodes (bench : Bench) (nodes : List Node) :
    { bench with nodes }.effort + (bench.nodes.map Node.cost).sum = bench.effort + (nodes.map Node.cost).sum := by
  have same (device : Nat) : { bench with nodes }.burden device = bench.burden device := burden_congr rfl rfl
  simp only [effort, same]
  omega

theorem effort_off (split : bench.tasks = task :: tasks)
    (silent : ∀ device found, bench.devices[device]? = some found → task.transmits device = false) :
    { bench with tasks }.effort + task.duty = bench.effort := by
  have same (device : Nat) : { bench with tasks }.burden device = bench.burden device := by
    cases present : bench.devices[device]? with
    | none => rw [burden, burden, present]
    | some found =>
      refine burden_congr rfl ?_
      rw [split, List.countP_cons_of_neg]
      exact Bool.not_eq_true _ ▸ silent device found present
  have change := effort_change bench { bench with tasks } 0 rfl rfl fun other _ => same other
  rw [same, split, List.map_cons, List.sum_cons] at change
  dsimp only at change
  omega

theorem effort_count {id : NodeId} {node : Node} (here : bench.nodes[id]? = some node)
    (acts : node.acted < node.limit) :
    { bench with nodes := bench.nodes.modify id fun node => { node with acted := node.acted + 1 } }.effort +
      node.reaction.cost = bench.effort := by
  have change := bench.effort_nodes (bench.nodes.modify id fun node => { node with acted := node.acted + 1 })
  have one := sum_map_modify Node.cost (fun node => { node with acted := node.acted + 1 }) here
  have left : node.limit - node.acted = node.limit - (node.acted + 1) + 1 := by omega
  have cost : node.cost = ({ node with acted := node.acted + 1 } : Node).cost + node.reaction.cost := by
    rw [Node.cost, left, Nat.succ_mul]
    rfl
  omega

theorem callCost_eq : callCost = 3 * maxFrame + 43 := rfl

theorem length_drainFrom_le (queue : TransmitQueue) (line : Capture) (sent : Nat) (bytes : Bytes) :
    (queue.drainFrom line sent bytes).queue.length ≤ bytes.length := by
  induction bytes generalizing line sent with
  | nil => exact Nat.le_refl _
  | cons byte rest ih => exact (ih (line.record byte) (sent + 1)).trans (Nat.le_succ _)

theorem length_serve_le (queue : TransmitQueue) (request : QueueRequest) :
    (queue.serve Capture.empty request).queue.length ≤ queue.length + maxFrame := by
  unfold TransmitQueue.serve
  cases request with
  | enqueue message =>
    dsimp only
    split
    next => exact Nat.le_add_right _ _
    next frame _ =>
      dsimp only
      exact Bus.length_enqueue_le queue frame
  | drain => exact Nat.le_add_right_of_le (length_drainFrom_le queue Capture.empty 0 queue.bytes)
  | release =>
    unfold TransmitQueue.release
    dsimp only
    split <;> exact Nat.le_add_right _ _
  | abort => exact Nat.zero_le _
  | describe => exact Nat.le_add_right _ _

theorem attempts_transmit (line : FaultyLine) (byte : UInt8) : (line.transmit byte).1.attempts = line.attempts + 1 := by
  unfold FaultyLine.transmit
  dsimp only
  cases line.failures.lookup line.attempts <;> rfl

theorem totalCost_eq {α : Type} (cost : α → Nat) (things : List α) : totalCost cost things = (things.map cost).sum := by
  rw [totalCost, List.sum_eq_foldl_nat, List.foldl_map]

theorem Device.burden_le (found : Device) (pending : Nat) :
    3 * found.bus.queue.length + found.strikes (found.wire.attempts + pending) ≤ found.cost := by
  have fewer : found.strikes (found.wire.attempts + pending) ≤ found.strikes found.wire.attempts := by
    apply List.Sublist.sum_le_sum
    · apply List.Sublist.map
      apply List.monotone_filter_right
      intro pair later
      exact decide_eq_true ((Nat.le_add_right _ _).trans (of_decide_eq_true later))
    · exact fun _ _ => Nat.zero_le _
  have same : found.cost = 4 * found.bus.queue.length + found.strikes found.wire.attempts := by
    rw [Device.cost, totalCost_eq]
    rfl
  omega

theorem Task.duty_le (task : Task) : task.duty ≤ task.cost := by
  cases task with
  | run there call report =>
    have bound := call.duty_le
    simp only [Task.duty, Task.cost, callCost_eq]
    omega
  | transmit => exact Nat.le_add_left 5 _
  | handle | leave => exact Nat.le_add_left 1 3
  | _ => exact Nat.le_refl _

theorem effort_le_stepsNeeded (bench : Bench) : bench.effort ≤ bench.stepsNeeded := by
  have tasks : (bench.tasks.map Task.duty).sum ≤ totalCost Task.cost bench.tasks := by
    rw [totalCost_eq]
    exact List.sum_le_sum fun task _ => task.duty_le
  have nodes : (bench.nodes.map Node.cost).sum = totalCost Node.cost bench.nodes := (totalCost_eq _ _).symm
  have devices : ∑ device ∈ Finset.range bench.devices.length, bench.burden device ≤
      totalCost Device.cost bench.devices := by
    calc ∑ device ∈ Finset.range bench.devices.length, bench.burden device
      _ = ∑ device : Fin bench.devices.length, bench.burden device := Finset.sum_range _
      _ ≤ ∑ device : Fin bench.devices.length, bench.devices[device.val].cost := by
        apply Finset.sum_le_sum
        intro device _
        rw [burden_of_present (List.getElem?_eq_getElem device.isLt)]
        exact Device.burden_le _ _
      _ = totalCost Device.cost bench.devices := by
        rw [totalCost_eq, ← List.sum_ofFn, List.ofFn_getElem_eq_map]
  rw [effort, stepsNeeded]
  omega

end Bench

end Hopline
