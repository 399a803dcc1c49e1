import Hopline.Bench.Basic
import Hopline.Proofs.Bus.History

/-! A bench and the traffic on one of its buses. The bench runs calls one inside the other, which is one of
the orders in which they can take their turns. Each of its steps is some moves of the traffic, and so is any
number of them. -/

namespace Hopline

open Bench

/-- Among all calls those in the slots are pending, and every other one has returned. The slot of a call that waits for
its handler may show it as it will go on. -/
structure Traffic.Awaits (calls : List Call) (slots : List (Nat × Call)) : Prop where
  standing : ∀ place call, (place, call) ∈ slots →
    ∃ standing, calls[place]? = some standing ∧ (standing = call ∨ standing.afterHandler = call)
  distinct : (slots.map Prod.fst).Nodup
  others : ∀ place call, calls[place]? = some call → place ∈ slots.map Prod.fst ∨ ∃ result, call = .returned result

namespace Traffic.Awaits

variable {calls : List Call} {slots : List (Nat × Call)} {place : Nat} {call old : Call}

theorem nil : Awaits [] [] := by
  constructor
  case standing =>
    intro place call member
    cases member
  case distinct => exact List.nodup_nil
  case others =>
    intro place call found
    cases found

theorem standing_concat (awaits : Awaits calls slots) (new : Call) : ∀ place call, (place, call) ∈ slots →
    ∃ standing, (calls ++ [new])[place]? = some standing ∧ (standing = call ∨ standing.afterHandler = call) := by
  intro place call member
  obtain ⟨standing, found, same⟩ := awaits.standing place call member
  have inside := (List.getElem?_eq_some_iff.mp found).1
  exact ⟨standing, (List.getElem?_append_left inside).trans found, same⟩

theorem found_concat {new : Call} (found : (calls ++ [new])[place]? = some call) :
    calls[place]? = some call ∨ place = calls.length ∧ new = call := by
  rcases Nat.lt_trichotomy place calls.length with before | rfl | beyond
  · exact .inl ((List.getElem?_append_left before).symm.trans found)
  · rw [List.getElem?_concat_length] at found
    exact .inr ⟨rfl, Option.some.inj found⟩
  · have outside : (calls ++ [new]).length ≤ place := by
      rw [List.length_append]
      exact beyond
    rw [List.getElem?_eq_none outside] at found
    cases found

/-- A call that begins is pending. -/
theorem enter (awaits : Awaits calls slots) (call : Call) :
    Awaits (calls ++ [call]) ((calls.length, call) :: slots) := by
  constructor
  case standing =>
    intro place other member
    rcases List.mem_cons.mp member with same | old
    · obtain ⟨rfl, rfl⟩ := Prod.mk.inj same
      exact ⟨other, List.getElem?_concat_length, .inl rfl⟩
    · exact awaits.standing_concat call place other old
  case distinct =>
    refine List.nodup_cons.mpr ⟨?_, awaits.distinct⟩
    intro member
    obtain ⟨⟨place, other⟩, inside, same⟩ := List.mem_map.mp member
    obtain ⟨_, found, _⟩ := awaits.standing place other inside
    exact Nat.ne_of_lt (List.getElem?_eq_some_iff.mp found).1 same
  case others =>
    intro place other found
    rcases found_concat found with earlier | ⟨rfl, _⟩
    · exact (awaits.others place other earlier).imp_left (List.mem_cons_of_mem _)
    · exact .inl List.mem_cons_self

/-- A call that is turned down is never pending. -/
theorem reject (awaits : Awaits calls slots) (result : Except BusError Unit) :
    Awaits (calls ++ [.returned result]) slots := by
  constructor
  case standing => exact awaits.standing_concat _
  case distinct => exact awaits.distinct
  case others =>
    intro place other found
    rcases found_concat found with earlier | ⟨_, rfl⟩
    · exact awaits.others place other earlier
    · exact .inr ⟨result, rfl⟩

/-- A call goes on. -/
theorem set (awaits : Awaits calls ((place, old) :: slots)) (call : Call) :
    Awaits (calls.set place call) ((place, call) :: slots) := by
  obtain ⟨absent, distinct⟩ := List.nodup_cons.mp awaits.distinct
  constructor
  case standing =>
    intro other found member
    rcases List.mem_cons.mp member with same | later
    · obtain ⟨rfl, rfl⟩ := Prod.mk.inj same
      obtain ⟨_, here, _⟩ := awaits.standing other old List.mem_cons_self
      exact ⟨found, List.getElem?_set_self (List.getElem?_eq_some_iff.mp here).1, .inl rfl⟩
    · have apart : place ≠ other := by
        rintro rfl
        exact absent (List.mem_map.mpr ⟨_, later, rfl⟩)
      rw [List.getElem?_set_ne apart]
      exact awaits.standing other found (List.mem_cons_of_mem _ later)
  case distinct => exact awaits.distinct
  case others =>
    intro other found here
    by_cases same : place = other
    · exact .inl (same ▸ List.mem_cons_self)
    · rw [List.getElem?_set_ne same] at here
      exact awaits.others other found here

/-- A call whose handler has just been called is shown as it will go on. -/
theorem defer (awaits : Awaits calls ((place, call) :: slots)) (here : calls[place]? = some call) :
    Awaits calls ((place, call.afterHandler) :: slots) := by
  constructor
  case standing =>
    intro other found member
    rcases List.mem_cons.mp member with same | later
    · obtain ⟨rfl, rfl⟩ := Prod.mk.inj same
      exact ⟨call, here, .inr rfl⟩
    · exact awaits.standing other found (List.mem_cons_of_mem _ later)
  case distinct => exact awaits.distinct
  case others => exact awaits.others

/-- A call that has returned is pending no more. -/
theorem leave (awaits : Awaits calls ((place, old) :: slots)) {result : Except BusError Unit}
    (here : calls[place]? = some (.returned result)) : Awaits calls slots := by
  constructor
  case standing =>
    intro other found member
    exact awaits.standing other found (List.mem_cons_of_mem _ member)
  case distinct => exact (List.nodup_cons.mp awaits.distinct).2
  case others =>
    intro other found there
    rcases awaits.others other found there with pending | returned
    · rcases List.mem_cons.mp pending with rfl | later
      · rw [here] at there
        exact .inr ⟨result, (Option.some.inj there).symm⟩
      · exact .inl later
    · exact .inr returned

end Traffic.Awaits

namespace Bench

/-- The call that a task goes on with on a device. -/
def Task.call? (device : Nat) : Task → Option Call
  | .run there call _ | .transmit there call _ => if there = device then some call else none
  | _ => none

def Interruption.asksQueue : Interruption → Bool
  | .queue _ => true
  | _ => false

/-- The task goes past no call on the device, and has the line take a byte only if there is one. -/
def Task.Fair (device : Nat) : Task → Prop
  | .transmit there call _ => there = device → ∃ origin frame sent byte, call = .sending origin frame sent byte
  | .interrupt there _ interruption => there = device → interruption.asksQueue = false
  | _ => True

end Bench

/-- The bench has the bus on a device, and nothing that it may do goes past the calls there. -/
structure Bench.Hosts (device : Nat) (found : Device) (bench : Bench) (bus : Bus) : Prop where
  present : bench.devices[device]? = some found
  bus : found.bus = bus
  interruptions : ∀ pair ∈ found.interruptions, pair.2.asksQueue = false
  fair : ∀ task ∈ bench.tasks, task.Fair device

/-- The bench has the bus of the traffic, and its tasks go on with the calls that are pending there. -/
structure Bench.Follows (device : Nat) (found : Device) (slots : List (Nat × Call)) (bench : Bench)
    (traffic : Traffic) : Prop extends bench.Hosts device found traffic.bus where
  pending : bench.tasks.filterMap (Task.call? device) = slots.map Prod.snd
  awaits : Traffic.Awaits traffic.calls slots

/-- Some moves of the traffic do what has become of the device, and carry what its line has taken meanwhile. -/
def Bench.Tracked (device : Nat) (traffic : Traffic) (taken : Bytes) (bench : Bench) : Prop :=
  ∃ (moves : List Move) (found : Device) (slots : List (Nat × Call)),
    bench.Follows device found slots (traffic.run moves) ∧
      found.wire.capture.bytes = taken ++ (traffic.history moves).carriage

namespace Bench

variable {device : Nat} {found later : Device} {slots rest : List (Nat × Call)} {bench middle after : Bench}
  {traffic : Traffic} {taken : Bytes} {task : Task} {tasks more : List Task}

theorem Follows.tracked (follows : bench.Follows device found slots traffic) :
    bench.Tracked device traffic found.wire.capture.bytes :=
  ⟨[], found, slots, follows, (List.append_nil _).symm⟩

theorem Tracked.of_move (move : Move) (follows : after.Follows device later slots (traffic.move move))
    (carried : later.wire.capture.bytes = taken ++ History.carriage (traffic.mark move).toList) :
    after.Tracked device traffic taken := by
  refine ⟨[move], later, slots, follows, ?_⟩
  rw [Traffic.history, Traffic.history, List.append_nil]
  exact carried

theorem Tracked.bind (tracked : middle.Tracked device traffic taken)
    (further : ∀ found slots traffic, middle.Follows device found slots traffic →
      after.Tracked device traffic found.wire.capture.bytes) : after.Tracked device traffic taken := by
  obtain ⟨front, found, slots, follows, carried⟩ := tracked
  obtain ⟨back, later, rest, follows, onward⟩ := further found slots _ follows
  refine ⟨front ++ back, later, rest, ?_, ?_⟩
  · rw [Traffic.run_append]
    exact follows
  · rw [Traffic.history_append, History.carriage_append, ← List.append_assoc, ← carried]
    exact onward

theorem devices_conclude (bench : Bench) (report : Report) (reply : Reply) :
    (bench.conclude report reply).devices = bench.devices := by
  cases report <;> rfl

theorem tasks_conclude (bench : Bench) (report : Report) (reply : Reply) :
    (bench.conclude report reply).tasks = bench.tasks := by
  cases report <;> rfl

theorem devices_setBus (present : bench.devices[device]? = some found) (bus : Bus) :
    (bench.setBus device bus).devices[device]? = some { found with bus } := by
  rw [setBus, List.getElem?_modify_eq, present]
  rfl

theorem devices_setBus_of_ne {there : Nat} (apart : there ≠ device) (bus : Bus) :
    (bench.setBus there bus).devices[device]? = bench.devices[device]? :=
  List.getElem?_modify_ne _ _ apart

theorem devices_register_of_ne {there : Nat} (apart : there ≠ device) (bench : Bench) (address : Address)
    (handler : HandlerId) : (bench.register there address handler).devices[device]? = bench.devices[device]? := by
  unfold register
  split
  next => rfl
  next => exact devices_setBus_of_ne apart _

theorem tasks_register (bench : Bench) (there : Nat) (address : Address) (handler : HandlerId) :
    (bench.register there address handler).tasks = bench.tasks := by
  unfold register
  split
  next => rfl
  next => rfl

theorem perform_turn {call : Call} {report : Report} {turn : Turn} (present : bench.devices[device]? = some found)
    (advanced : found.bus.advance bench.alive call = some turn) : bench.perform (.run device call report) =
      ((bench.setBus device turn.bus).note turn.events).schedule [.run device turn.call report] := by
  unfold perform
  dsimp only
  rw [present]
  cases call with
  | handling | sending | returned => cases advanced
  | _ =>
    dsimp only
    rw [advanced]

theorem perform_transmit {origin : Origin} {frame : Frame} {sent : Nat} {byte : UInt8} {report : Report}
    (present : bench.devices[device]? = some found) :
    bench.perform (.transmit device (.sending origin frame sent byte) report) =
      (bench.setWire device (found.wire.transmit byte).1).schedule
        [.run device ((Call.sending origin frame sent byte).afterLine (found.wire.transmit byte).2) report] := by
  unfold perform
  dsimp only
  rw [present]

theorem devices_setWire (present : bench.devices[device]? = some found) (wire : FaultyLine) :
    (bench.setWire device wire).devices[device]? = some { found with wire } := by
  rw [setWire, List.getElem?_modify_eq, present]
  rfl

theorem Follows.congr (follows : bench.Follows device found slots traffic)
    (devices : after.devices[device]? = bench.devices[device]?) (queued : after.tasks = bench.tasks) :
    after.Follows device found slots traffic :=
  { follows with
    present := devices.trans follows.present
    fair := queued ▸ follows.fair
    pending := queued ▸ follows.pending }

theorem Tracked.congr (tracked : bench.Tracked device traffic taken) (devices : after.devices = bench.devices)
    (queued : after.tasks = bench.tasks) : after.Tracked device traffic taken := by
  obtain ⟨moves, found, slots, follows, carried⟩ := tracked
  exact ⟨moves, found, slots, follows.congr (by rw [devices]) queued, carried⟩

theorem Tracked.conclude (tracked : bench.Tracked device traffic taken) (report : Report) (reply : Reply) :
    (bench.conclude report reply).Tracked device traffic taken :=
  tracked.congr (devices_conclude bench report reply) (tasks_conclude bench report reply)

theorem Hosts.schedule {bus : Bus} (hosts : bench.Hosts device found bus) (fair : ∀ task ∈ more, task.Fair device) :
    (bench.schedule more).Hosts device found bus :=
  { hosts with fair := List.forall_mem_append.mpr ⟨fair, hosts.fair⟩ }

/-- A task that goes on with no call on the device is taken off the list. -/
theorem Follows.off (follows : bench.Follows device found slots traffic) (split : bench.tasks = task :: tasks)
    (idle : task.call? device = none) : { bench with tasks }.Follows device found slots traffic := by
  have fair := follows.fair
  have pending := follows.pending
  rw [split] at fair pending
  rw [List.filterMap_cons_none idle] at pending
  exact { follows with fair := fun task member => fair task (List.mem_cons_of_mem _ member), pending }

theorem Follows.schedule (follows : bench.Follows device found slots traffic)
    (apart : ∀ task ∈ more, task.call? device = none ∧ task.Fair device) :
    (bench.schedule more).Follows device found slots traffic := by
  have silent : more.filterMap (Task.call? device) = [] :=
    List.filterMap_eq_nil_iff.mpr fun task member => (apart task member).1
  constructor
  case toHosts =>
    apply Hosts.schedule follows.toHosts
    exact fun task member => (apart task member).2
  case pending =>
    rw [Bench.schedule, List.filterMap_append, silent]
    exact follows.pending
  case awaits => exact follows.awaits

/-- A call begins on the device. -/
theorem Follows.begin (follows : bench.Follows device found slots traffic) {call : Call}
    (begins : more.filterMap (Task.call? device) = [call]) (fair : ∀ task ∈ more, task.Fair device) (move : Move)
    (enters : traffic.move move = traffic.enter call) (silent : traffic.mark move = none) :
    (bench.schedule more).Tracked device traffic found.wire.capture.bytes := by
  have onward : (bench.schedule more).Follows device found ((traffic.calls.length, call) :: slots)
      (traffic.enter call) := by
    constructor
    case toHosts =>
      have hosts := Hosts.schedule follows.toHosts fair
      exact { hosts with bus := hosts.bus }
    case pending =>
      rw [Bench.schedule, List.filterMap_append, begins, follows.pending]
      rfl
    case awaits => exact follows.awaits.enter call
  apply Tracked.of_move move
  · rw [enters]
    exact onward
  · rw [silent]
    exact (List.append_nil _).symm

theorem Follows.send (follows : bench.Follows device found slots traffic) (there : Nat) (message : Message)
    (report : Report) :
    (bench.perform (.send there message report)).Tracked device traffic found.wire.capture.bytes := by
  unfold perform
  dsimp only
  cases signalled : Call.signal message with
  | ok call =>
    have enters : traffic.move (.signal message) = traffic.enter call := by
      rw [Traffic.move, Call.ofMessage, signalled]
    by_cases own : there = device
    · refine follows.begin ?_ ?_ (.signal message) enters rfl
      · exact List.filterMap_cons_some (if_pos own)
      · simp only [List.forall_mem_singleton, Task.Fair]
    · apply Follows.tracked
      apply follows.schedule
      simp only [List.forall_mem_singleton, Task.call?, Task.Fair, if_neg own, and_true]
  | error error =>
    apply Tracked.conclude
    by_cases own : there = device
    · have enters : traffic.move (.signal message) = traffic.enter (.returned (.error error)) := by
        rw [Traffic.move, Call.ofMessage, signalled]
      have onward : bench.Follows device found slots (traffic.enter (.returned (.error error))) :=
        { follows with bus := follows.bus, awaits := follows.awaits.reject _ }
      exact .of_move (.signal message) (enters ▸ onward) (List.append_nil _).symm
    · exact follows.tracked

theorem Follows.feed (follows : bench.Follows device found slots traffic) (there : Nat) (bytes : Bytes)
    (report : Report) :
    (bench.perform (.feed there bytes report)).Tracked device traffic found.wire.capture.bytes := by
  unfold perform
  cases bytes with
  | nil => exact follows.tracked.conclude report .done
  | cons byte bytes =>
    dsimp only
    by_cases own : there = device
    · refine follows.begin ?_ ?_ (.ingest byte) rfl rfl
      · simp only [List.filterMap_cons, Task.call?, if_pos own, List.filterMap_nil]
      · simp only [List.forall_mem_cons, Task.Fair, List.not_mem_nil, false_implies, implies_true, and_true]
    · apply Follows.tracked
      apply follows.schedule
      simp only [List.forall_mem_cons, Task.call?, Task.Fair, if_neg own, List.not_mem_nil, false_implies,
        implies_true, and_true]

theorem Follows.register (follows : bench.Follows device found slots traffic) (there : Nat) (address : Address)
    (handler : HandlerId) :
    (bench.register there address handler).Tracked device traffic found.wire.capture.bytes := by
  by_cases own : there = device
  · subst own
    let bus := (found.bus.register bench.alive address handler).1
    have present : (bench.register there address handler).devices[there]? = some { found with bus } := by
      unfold Bench.register
      rw [follows.present]
      exact devices_setBus follows.present bus
    have queued := tasks_register bench there address handler
    have registered : (bench.register there address handler).Follows there { found with bus } slots
        (traffic.move (.register bench.alive address handler)) :=
      { present
        bus := congrArg (fun bus => (Bus.register bus bench.alive address handler).1) follows.bus
        interruptions := follows.interruptions
        fair := queued ▸ follows.fair
        pending := queued ▸ follows.pending
        awaits := follows.awaits }
    exact .of_move (.register bench.alive address handler) registered (List.append_nil _).symm
  · exact (follows.congr (devices_register_of_ne own bench address handler) (tasks_register _ _ _ _)).tracked

theorem Follows.addNode (follows : bench.Follows device found slots traffic) (there : Nat) (address : Address)
    (reaction : Reaction) (limit : Nat) :
    (bench.addNode there address reaction limit).1.Tracked device traffic found.wire.capture.bytes := by
  let node : Node := { device := there, address, reaction, limit, acted := 0, attached := true, running := 0 }
  have grown : { bench with nodes := bench.nodes ++ [node] }.Follows device found slots traffic := follows.congr rfl rfl
  exact grown.register there address bench.nodes.length

theorem Follows.detach (follows : bench.Follows device found slots traffic) (id : NodeId) :
    (bench.detach id).1.Follows device found slots traffic := by
  unfold Bench.detach
  split
  next => exact follows
  next => exact follows.congr rfl rfl

theorem Follows.react (follows : bench.Follows device found slots traffic) (id : NodeId) (node : Node) (frame : Frame) :
    (bench.react id node frame).Tracked device traffic found.wire.capture.bytes := by
  unfold Bench.react
  split
  next => exact follows.tracked
  next =>
    let nodes := bench.nodes.modify id fun node => { node with acted := node.acted + 1 }
    have counted : { bench with nodes }.Follows device found slots traffic := follows.congr rfl rfl
    dsimp only
    cases node.reaction with
    | record => exact counted.tracked
    | reply | relay | feed =>
      apply Follows.tracked
      apply counted.schedule
      simp only [List.forall_mem_singleton, Task.call?, Task.Fair, and_true]
    | detach target => exact (counted.detach target).tracked.conclude _ _
    | attach address => exact (counted.addNode node.device address .record 0).conclude _ _

theorem Follows.interrupt (follows : bench.Follows device found slots traffic) {there : Nat} (call : Nat)
    (struck : Device) {interruption : Interruption} (fair : there = device → interruption.asksQueue = false) :
    (bench.interrupt there call struck interruption).Tracked device traffic found.wire.capture.bytes := by
  cases interruption with
  | signal | ingest =>
    apply Follows.tracked
    apply follows.schedule
    simp only [List.forall_mem_singleton, Task.call?, Task.Fair, and_true]
  | queue request =>
    have apart : there ≠ device := by
      intro own
      cases fair own
    let served := struck.bus.queue.serve Capture.empty request
    let bus := { struck.bus with queue := served.queue }
    have onward : ((bench.setBus there bus).note served.events).Follows device found slots traffic :=
      follows.congr (devices_setBus_of_ne apart bus) rfl
    exact onward.tracked.conclude (.interruption call) (.queue served.reply)

theorem Follows.enter (follows : bench.Follows device found slots traffic) (id : NodeId) (frame : Frame) :
    (bench.enter id frame).Follows device found slots traffic := by
  let nodes := bench.nodes.modify id fun node => { node with running := node.running + 1 }
  have running : { bench with nodes }.Follows device found slots traffic := follows.congr rfl rfl
  apply running.schedule
  simp only [List.forall_mem_cons, Task.call?, Task.Fair, List.not_mem_nil, false_implies, implies_true, and_true]

theorem Follows.run_elsewhere (follows : bench.Follows device found slots traffic) {there : Nat}
    (apart : there ≠ device) (call : Call) (report : Report) :
    (bench.perform (.run there call report)).Tracked device traffic found.wire.capture.bytes := by
  have idle (next : Call) : ∀ task ∈ [Task.run there next report], task.call? device = none ∧ task.Fair device := by
    simp only [List.forall_mem_singleton, Task.call?, Task.Fair, if_neg apart, and_true]
  unfold perform
  dsimp only
  split
  next => exact follows.tracked
  next other _ =>
    split
    next result => exact follows.tracked.conclude report _
    next origin frame handler => exact ((follows.schedule (idle _)).enter handler frame).tracked
    next origin frame sent byte =>
      apply Follows.tracked
      apply follows.schedule
      intro task member
      rcases List.mem_append.mp member with strikes | waits
      · obtain ⟨pair, _, rfl⟩ := List.mem_map.mp strikes
        exact ⟨rfl, fun own => absurd own apart⟩
      · rw [List.mem_singleton.mp waits]
        exact ⟨if_neg apart, fun own => absurd own apart⟩
    next =>
      split
      next => exact follows.tracked
      next turn _ =>
        have moved : ((bench.setBus there turn.bus).note turn.events).Follows device found slots traffic :=
          follows.congr (devices_setBus_of_ne apart turn.bus) rfl
        exact (moved.schedule (idle turn.call)).tracked

theorem Follows.transmit_elsewhere (follows : bench.Follows device found slots traffic) {there : Nat}
    (apart : there ≠ device) (call : Call) (report : Report) :
    (bench.perform (.transmit there call report)).Tracked device traffic found.wire.capture.bytes := by
  unfold perform
  dsimp only
  split
  next other origin frame sent byte _ =>
    have moved : (bench.setWire there (other.wire.transmit byte).1).Follows device found slots traffic :=
      follows.congr (List.getElem?_modify_ne _ _ apart) rfl
    apply Follows.tracked
    apply moved.schedule
    simp only [List.forall_mem_singleton, Task.call?, Task.Fair, if_neg apart, and_true]
  next => exact follows.tracked

/-- A task that goes on with no call on the device does to its bus what some moves do. -/
theorem Follows.idle (follows : bench.Follows device found slots traffic) (idle : task.call? device = none)
    (fair : task.Fair device) : (bench.perform task).Tracked device traffic found.wire.capture.bytes := by
  cases task with
  | send there message report => exact follows.send there message report
  | feed there bytes report => exact follows.feed there bytes report
  | leave id =>
    have left : (bench.perform (.leave id)).Follows device found slots traffic := follows.congr rfl rfl
    exact left.tracked
  | handle id frame =>
    unfold perform
    dsimp only
    split
    next => exact follows.tracked
    next node _ =>
      have logged : { bench with log := bench.log.push (.heard id frame) }.Follows device found slots traffic :=
        follows.congr rfl rfl
      exact logged.react id node frame
  | interrupt there call interruption =>
    unfold perform
    dsimp only
    split
    next => exact follows.tracked
    next struck _ => exact follows.interrupt call struck fair
  | run there call report =>
    refine follows.run_elsewhere ?_ call report
    intro own
    cases (if_pos own).symm.trans idle
  | transmit there call report =>
    refine follows.transmit_elsewhere ?_ call report
    intro own
    cases (if_pos own).symm.trans idle

/-- A task that goes on with a call on the device has been taken off the list, and the call stands as it shows it. -/
structure Due (device : Nat) (found : Device) (place : Nat) (call : Call) (rest : List (Nat × Call)) (bench : Bench)
    (traffic : Traffic) : Prop extends bench.Hosts device found traffic.bus where
  pending : bench.tasks.filterMap (Task.call? device) = rest.map Prod.snd
  here : traffic.calls[place]? = some call
  awaits : Traffic.Awaits traffic.calls ((place, call) :: rest)

variable {place : Nat} {call : Call}

/-- When a call is taken up whose handler was called, the handler has returned. -/
theorem Follows.due (follows : bench.Follows device found slots traffic) (split : bench.tasks = task :: tasks)
    (own : task.call? device = some call) : ∃ moves place rest,
      { bench with tasks }.Due device found place call rest (traffic.run moves) ∧
        (traffic.history moves).carriage = [] := by
  have hosts : { bench with tasks }.Hosts device found traffic.bus :=
    { follows with fair := fun task member => follows.fair task (split ▸ List.mem_cons_of_mem _ member) }
  have pending := follows.pending
  rw [split, List.filterMap_cons_some own] at pending
  obtain ⟨⟨place, _⟩, rest, rfl, rfl, remaining⟩ := List.map_eq_cons_iff.mp pending.symm
  have awaits := follows.awaits
  obtain ⟨standing, here, same | later⟩ := awaits.standing place _ List.mem_cons_self
  · subst same
    exact ⟨[], place, rest, { hosts with pending := remaining.symm, here, awaits }, rfl⟩
  · have replied : traffic.resume place Call.afterHandler =
        { traffic with calls := traffic.calls.set place standing.afterHandler } := by
      rw [Traffic.resume, here]
    have inside := (List.getElem?_eq_some_iff.mp here).1
    refine ⟨[.reply place], place, rest, ?_, rfl⟩
    show Due device found place _ rest _ (traffic.resume place Call.afterHandler)
    rw [replied, later]
    exact
      { hosts with
        pending := remaining.symm
        here := List.getElem?_set_self inside
        awaits := awaits.set _ }

/-- The device has changed with the call. -/
theorem Due.next (due : bench.Due device found place call rest traffic) (present : after.devices[device]? = some later)
    (interruptions : later.interruptions = found.interruptions) (queued : after.tasks = bench.tasks) (next : Call) :
    after.Due device later place next rest ⟨later.bus, traffic.calls.set place next⟩ :=
  { present
    bus := rfl
    interruptions := interruptions ▸ due.interruptions
    fair := queued ▸ due.fair
    pending := queued ▸ due.pending
    here := List.getElem?_set_self (List.getElem?_eq_some_iff.mp due.here).1
    awaits := due.awaits.set next }

/-- The call has a task again, before which others may come. -/
theorem Due.schedule (due : bench.Due device found place call rest traffic) {goal : Call}
    (awaits : Traffic.Awaits traffic.calls ((place, goal) :: rest))
    (goes : more.filterMap (Task.call? device) = [goal]) (fair : ∀ task ∈ more, task.Fair device) :
    (bench.schedule more).Follows device found ((place, goal) :: rest) traffic := by
  constructor
  case toHosts => exact Hosts.schedule due.toHosts fair
  case pending =>
    rw [Bench.schedule, List.filterMap_append, goes, due.pending]
    rfl
  case awaits => exact awaits

theorem Due.run_next (due : bench.Due device found place call rest traffic) (report : Report) :
    (bench.schedule [.run device call report]).Follows device found ((place, call) :: rest) traffic := by
  apply due.schedule due.awaits
  · exact List.filterMap_cons_some (if_pos rfl)
  · simp only [List.forall_mem_singleton, Task.Fair]

theorem carriage_mark (bus : Bus) (call : Call) : History.carriage (bus.mark call).toList = [] := by
  unfold Bus.mark
  cases call with
  | queueing origin frame =>
    dsimp only
    cases (bus.queue.enqueue frame).claimed <;> rfl
  | draining origin frame sent =>
    dsimp only
    cases bus.queue.pop.2 <;> rfl
  | _ => rfl

theorem Due.turn (due : bench.Due device found place call rest traffic) {turn : Turn}
    (advanced : found.bus.advance bench.alive call = some turn) (report : Report) :
    (bench.perform (.run device call report)).Tracked device traffic found.wire.capture.bytes := by
  have turned : traffic.move (.turn place bench.alive) = ⟨turn.bus, traffic.calls.set place turn.call⟩ := by
    rw [due.bus] at advanced
    rw [Traffic.move, Traffic.turn, due.here, Option.bind_some, advanced]
  let after := (bench.setBus device turn.bus).note turn.events
  have present : after.devices[device]? = some { found with bus := turn.bus } := devices_setBus due.present turn.bus
  have onward : after.Due device { found with bus := turn.bus } place turn.call rest
      ⟨turn.bus, traffic.calls.set place turn.call⟩ := due.next present rfl rfl turn.call
  rw [perform_turn due.present advanced]
  apply Tracked.of_move (.turn place bench.alive)
  · rw [turned]
    exact onward.run_next report
  · rw [Traffic.mark, due.here, Option.bind_some, carriage_mark, List.append_nil]

theorem Due.run (due : bench.Due device found place call rest traffic) (report : Report) :
    (bench.perform (.run device call report)).Tracked device traffic found.wire.capture.bytes := by
  cases advanced : found.bus.advance bench.alive call with
  | some turn => exact due.turn advanced report
  | none =>
    unfold perform
    dsimp only
    rw [due.present]
    cases Bus.waits_of_stuck advanced with
    | returned result =>
      have left : bench.Follows device found rest traffic :=
        { due with awaits := due.awaits.leave due.here }
      exact left.tracked.conclude report _
    | handling origin frame handler =>
      have waiting : (bench.schedule [.run device (.handled origin frame) report]).Follows device found
          ((place, .handled origin frame) :: rest) traffic := by
        apply Due.schedule due (due.awaits.defer due.here)
        · exact List.filterMap_cons_some (if_pos rfl)
        · simp only [List.forall_mem_singleton, Task.Fair]
      exact (waiting.enter handler frame).tracked
    | sending origin frame sent byte =>
      apply Follows.tracked
      apply Due.schedule due due.awaits
      · rw [List.filterMap_append, List.filterMap_map]
        refine (congrArg (· ++ _) (List.filterMap_eq_nil_iff.mpr fun _ _ => rfl)).trans ?_
        exact List.filterMap_cons_some (if_pos rfl)
      · intro task member
        rcases List.mem_append.mp member with strikes | waits
        · obtain ⟨pair, struck, rfl⟩ := List.mem_map.mp strikes
          exact fun _ => due.interruptions pair (List.mem_of_mem_filter struck)
        · rw [List.mem_singleton.mp waits]
          exact fun _ => ⟨origin, frame, sent, byte, rfl⟩

theorem capture_transmit (line : FaultyLine) (origin : Origin) (frame : Frame) (sent : Nat) (byte : UInt8) :
    (line.transmit byte).1.capture.bytes = line.capture.bytes ++
      History.carriage (Call.mark (line.transmit byte).2 (.sending origin frame sent byte)).toList := by
  unfold FaultyLine.transmit
  dsimp only
  cases line.failures.lookup line.attempts with
  | none => rfl
  | some error => exact (List.append_nil _).symm

theorem Due.transmit (due : bench.Due device found place call rest traffic) (report : Report)
    (fair : (Task.transmit device call report).Fair device) :
    (bench.perform (.transmit device call report)).Tracked device traffic found.wire.capture.bytes := by
  obtain ⟨origin, frame, sent, byte, rfl⟩ := fair rfl
  let wire := (found.wire.transmit byte).1
  let answer := (found.wire.transmit byte).2
  let next := (Call.sending origin frame sent byte).afterLine answer
  have answered : traffic.move (.answer place answer) = ⟨found.bus, traffic.calls.set place next⟩ := by
    rw [Traffic.move, Traffic.resume, due.here, due.bus]
  have present : (bench.setWire device wire).devices[device]? = some { found with wire } :=
    devices_setWire due.present wire
  have onward : (bench.setWire device wire).Due device { found with wire } place next rest
      ⟨found.bus, traffic.calls.set place next⟩ := due.next present rfl rfl next
  rw [perform_transmit due.present]
  apply Tracked.of_move (.answer place answer)
  · rw [answered]
    exact onward.run_next report
  · rw [Traffic.mark, due.here, Option.bind_some]
    exact capture_transmit found.wire origin frame sent byte

/-- Whatever the bench does next, some moves do to the bus of the device. -/
theorem Follows.step (follows : bench.Follows device found slots traffic) (split : bench.tasks = task :: tasks) :
    ({ bench with tasks }.perform task).Tracked device traffic found.wire.capture.bytes := by
  have fair : task.Fair device := follows.fair task (split ▸ List.mem_cons_self)
  cases own : task.call? device with
  | none => exact (follows.off split own).idle own fair
  | some call =>
    obtain ⟨moves, place, rest, due, nothing⟩ := follows.due split own
    have onward : ({ bench with tasks }.perform task).Tracked device (traffic.run moves) found.wire.capture.bytes := by
      cases task with
      | run there other report =>
        obtain ⟨rfl, same⟩ := Option.ite_none_right_eq_some.mp own
        cases same
        exact due.run report
      | transmit there other report =>
        obtain ⟨rfl, same⟩ := Option.ite_none_right_eq_some.mp own
        cases same
        exact due.transmit report fair
      | send | feed | handle | leave | interrupt => cases own
    obtain ⟨more, later, rest, follows, carried⟩ := onward
    refine ⟨moves ++ more, later, rest, ?_, ?_⟩
    · rw [Traffic.run_append]
      exact follows
    · rw [Traffic.history_append, History.carriage_append, nothing]
      exact carried

theorem Follows.proceed (follows : bench.Follows device found slots traffic) (steps : Nat) :
    (Bench.proceed steps bench).Tracked device traffic found.wire.capture.bytes := by
  induction steps generalizing bench found slots traffic with
  | zero => exact follows.tracked
  | succ steps ih =>
    unfold Bench.proceed
    split
    next => exact follows.tracked
    next task tasks split =>
      apply (follows.step split).bind
      intro found slots traffic follows
      exact ih follows

end Bench

end Hopline
