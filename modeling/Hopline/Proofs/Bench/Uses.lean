import Hopline.Proofs.Bench.Rest

/-! What can be asked of a bench. Whatever it is, the bench comes to rest, the bus of a device ends where a run of moves
takes it, and its line has taken what the run carries; so what is proved of every run of moves holds of the bench. -/

namespace Hopline.Bench

/-- Something that is asked of a bench from outside. -/
inductive Use
  | addDevice (bus : Bus) (failures : List (Nat × LineError)) (interruptions : List (Nat × Interruption))
  | addNode (device : Nat) (address : Address) (reaction : Reaction) (limit : Nat)
  | addAddress (id : NodeId) (address : Address)
  | detach (id : NodeId)
  | signal (device : Nat) (message : Message)
  | signalFrom (id : NodeId) (destination : Address) (payload : Bytes) (flags : Flags) (ttl : Option UInt8)
  | ingest (device : Nat) (bytes : Bytes)
  | receive (device : Nat) (frame : Frame)
  | poke (device : Nat) (address : Address)
  | ask (device : Nat) (request : QueueRequest)
  | resetWindow (device : Nat)
  | takeWire (device : Nat)
  | takeLog

def use (bench : Bench) : Use → Bench
  | .addDevice bus failures interruptions => bench.addDevice bus failures interruptions
  | .addNode device address reaction limit => (bench.addNode device address reaction limit).1
  | .addAddress id address => (bench.addAddress id address).1
  | .detach id => (bench.detach id).1
  | .signal device message => (bench.signal device message).1
  | .signalFrom id destination payload flags ttl => (bench.signalFrom id destination payload flags ttl).1
  | .ingest device bytes => bench.ingest device bytes
  | .receive device frame => bench.receive device frame
  | .poke device address => (bench.poke device address).1
  | .ask device request => (bench.ask device request).1
  | .resetWindow device => bench.resetWindow device
  | .takeWire device => (bench.takeWire device).1
  | .takeLog => bench.takeLog.1

def useAll (bench : Bench) (uses : List Use) : Bench := uses.foldl use bench

/-- The bytes that a use hands out of those that the line of a device has taken. -/
def handed (bench : Bench) (device : Nat) : Use → Bytes
  | .takeWire there => if there = device then (bench.takeWire there).2.bytes else []
  | _ => []

def handedOut (device : Nat) : Bench → List Use → Bytes
  | _, [] => []
  | bench, use :: uses => bench.handed device use ++ handedOut device (bench.use use) uses

/-- A use that does not go to the queue of the device past its bus. -/
def Use.Fair (device : Nat) : Use → Prop
  | .ask there _ => there ≠ device
  | _ => True

variable {device : Nat} {found : Device} {slots : List (Nat × Call)} {bench : Bench} {traffic : Traffic}
  {taken : Bytes} {more : List Task}

theorem Tracked.finish (tracked : bench.Tracked device traffic taken) : bench.finish.Tracked device traffic taken := by
  apply tracked.bind
  intro found slots traffic follows
  exact follows.proceed bench.stepsNeeded

theorem Follows.execute (follows : bench.Follows device found slots traffic)
    (apart : ∀ task ∈ more, task.call? device = none ∧ task.Fair device) :
    (bench.execute more).Tracked device traffic found.wire.capture.bytes :=
  (follows.schedule apart).tracked.finish

theorem Follows.addDevice (follows : bench.Follows device found slots traffic) (bus : Bus)
    (failures : List (Nat × LineError)) (interruptions : List (Nat × Interruption)) :
    (bench.addDevice bus failures interruptions).Tracked device traffic found.wire.capture.bytes := by
  have inside : device < bench.devices.length := (List.getElem?_eq_some_iff.mp follows.present).1
  have kept : (bench.addDevice bus failures interruptions).Follows device found slots traffic :=
    follows.congr (List.getElem?_append_left inside) rfl
  exact kept.tracked

theorem Follows.signal (follows : bench.Follows device found slots traffic) (there : Nat) (message : Message) :
    (bench.signal there message).1.Tracked device traffic found.wire.capture.bytes := by
  have cleared : { bench with answer := none }.Follows device found slots traffic := follows.congr rfl rfl
  apply cleared.execute
  simp only [List.forall_mem_singleton, Task.call?, Task.Fair, and_true]

theorem Follows.resetWindow (follows : bench.Follows device found slots traffic) (there : Nat) :
    (bench.resetWindow there).Tracked device traffic found.wire.capture.bytes := by
  unfold Bench.resetWindow
  split
  next => exact follows.tracked
  next other present =>
    dsimp only
    by_cases own : there = device
    · subst own
      cases follows.present.symm.trans present
      let bus := found.bus.resetWindow.1
      have reset : ((bench.setBus there bus).note found.bus.resetWindow.2).Follows there { found with bus } slots
          (traffic.move .resetWindow) :=
        { follows with
          present := devices_setBus follows.present bus
          bus := congrArg (fun bus => (Bus.resetWindow bus).1) follows.bus }
      exact .of_move .resetWindow reset (List.append_nil _).symm
    · let bus := other.bus.resetWindow.1
      have reset : ((bench.setBus there bus).note other.bus.resetWindow.2).Follows device found slots traffic :=
        follows.congr (devices_setBus_of_ne own bus) rfl
      exact reset.tracked

theorem Follows.receive (follows : bench.Follows device found slots traffic) (there : Nat) (frame : Frame) :
    (bench.receive there frame).Tracked device traffic found.wire.capture.bytes := by
  by_cases own : there = device
  · apply Tracked.finish
    refine follows.begin ?_ ?_ (.receive frame) rfl rfl
    · exact List.filterMap_cons_some (if_pos own)
    · simp only [List.forall_mem_singleton, Task.Fair]
  · apply follows.execute
    simp only [List.forall_mem_singleton, Task.call?, Task.Fair, if_neg own, and_true]

theorem Follows.poke (follows : bench.Follows device found slots traffic) (there : Nat) (address : Address) :
    (bench.poke there address).1.Tracked device traffic found.wire.capture.bytes := by
  unfold Bench.poke
  split
  next => exact follows.tracked
  next other _ =>
    split
    next => exact follows.tracked
    next handler _ => exact (follows.enter handler _).tracked.finish

theorem Follows.ask (follows : bench.Follows device found slots traffic) {there : Nat} (apart : there ≠ device)
    (request : QueueRequest) : (bench.ask there request).1.Tracked device traffic found.wire.capture.bytes := by
  unfold Bench.ask
  split
  next => exact follows.tracked
  next other _ =>
    have served (bus : Bus) (events : List Event) :
        ((bench.setBus there bus).note events).Follows device found slots traffic :=
      follows.congr (devices_setBus_of_ne apart bus) rfl
    exact (served _ _).tracked

theorem Follows.signalFrom (follows : bench.Follows device found slots traffic) (id : NodeId) (destination : Address)
    (payload : Bytes) (flags : Flags) (ttl : Option UInt8) :
    (bench.signalFrom id destination payload flags ttl).1.Tracked device traffic found.wire.capture.bytes := by
  unfold Bench.signalFrom
  split
  next => exact follows.tracked
  next node _ =>
    have speaking : { bench with speaker := some id }.Follows device found slots traffic := follows.congr rfl rfl
    exact (speaking.signal node.device _).congr rfl rfl

theorem Follows.addAddress (follows : bench.Follows device found slots traffic) (id : NodeId) (address : Address) :
    (bench.addAddress id address).1.Tracked device traffic found.wire.capture.bytes := by
  unfold Bench.addAddress
  split
  next => exact follows.tracked
  next node _ => exact follows.register node.device address id

theorem Follows.takeWire (follows : bench.Follows device found slots traffic) (there : Nat) :
    ∃ taken, (bench.takeWire there).1.Tracked device traffic taken ∧
      bench.handed device (.takeWire there) ++ taken = found.wire.capture.bytes := by
  by_cases own : there = device
  · subst own
    let wire := found.wire.take.1
    have taken : bench.takeWire there = (bench.setWire there wire, found.wire.capture) := by
      rw [Bench.takeWire, follows.present]
      rfl
    have emptied : (bench.setWire there wire).Follows there { found with wire } slots traffic :=
      { follows with
        present := devices_setWire follows.present wire }
    rw [handed, if_pos rfl, taken]
    exact ⟨[], emptied.tracked, List.append_nil _⟩
  · rw [handed, if_neg own]
    refine ⟨found.wire.capture.bytes, ?_, rfl⟩
    unfold Bench.takeWire
    split
    next => exact follows.tracked
    next other _ =>
      have moved (wire : FaultyLine) : (bench.setWire there wire).Follows device found slots traffic :=
        follows.congr (List.getElem?_modify_ne _ _ own) rfl
      exact (moved _).tracked

theorem Follows.use (follows : bench.Follows device found slots traffic) {use : Use} (fair : use.Fair device) :
    ∃ taken, (bench.use use).Tracked device traffic taken ∧
      bench.handed device use ++ taken = found.wire.capture.bytes := by
  cases use with
  | takeWire there => exact follows.takeWire there
  | addDevice bus failures interruptions => exact ⟨_, follows.addDevice bus failures interruptions, rfl⟩
  | addNode there address reaction limit => exact ⟨_, follows.addNode there address reaction limit, rfl⟩
  | addAddress id address => exact ⟨_, follows.addAddress id address, rfl⟩
  | detach id => exact ⟨_, (follows.detach id).tracked, rfl⟩
  | signal there message => exact ⟨_, follows.signal there message, rfl⟩
  | signalFrom id destination payload flags ttl =>
    exact ⟨_, follows.signalFrom id destination payload flags ttl, rfl⟩
  | ingest there bytes =>
    refine ⟨_, follows.execute ?_, rfl⟩
    simp only [List.forall_mem_singleton, Task.call?, Task.Fair, and_true]
  | receive there frame => exact ⟨_, follows.receive there frame, rfl⟩
  | poke there address => exact ⟨_, follows.poke there address, rfl⟩
  | ask there request => exact ⟨_, follows.ask fair request, rfl⟩
  | resetWindow there => exact ⟨_, follows.resetWindow there, rfl⟩
  | takeLog =>
    have emptied : bench.takeLog.1.Follows device found slots traffic := follows.congr rfl rfl
    exact ⟨_, emptied.tracked, rfl⟩

theorem Follows.useAll (follows : bench.Follows device found slots traffic) {uses : List Use}
    (fair : ∀ use ∈ uses, use.Fair device) : ∃ moves later rest,
      (bench.useAll uses).Follows device later rest (traffic.run moves) ∧
        handedOut device bench uses ++ later.wire.capture.bytes =
          found.wire.capture.bytes ++ (traffic.history moves).carriage := by
  induction uses generalizing bench found slots traffic with
  | nil => exact ⟨[], found, slots, follows, (List.append_nil _).symm⟩
  | cons use uses ih =>
    obtain ⟨first, others⟩ := List.forall_mem_cons.mp fair
    obtain ⟨taken, ⟨front, middle, waiting, follows, carried⟩, given⟩ := follows.use first
    obtain ⟨back, later, rest, follows, onward⟩ := ih follows others
    refine ⟨front ++ back, later, rest, ?_, ?_⟩
    · rw [Traffic.run_append]
      exact follows
    · rw [handedOut, List.append_assoc, onward, carried, Traffic.history_append, History.carriage_append, ← given,
        List.append_assoc, List.append_assoc]

theorem tasks_use (idle : bench.tasks = []) (use : Use) : (bench.use use).tasks = [] := by
  have calm := Calm.of_idle idle
  cases use with
  | addDevice bus failures interruptions => exact idle
  | addNode there address reaction limit => exact (tasks_register _ there address _).trans idle
  | addAddress id address =>
    unfold Bench.use Bench.addAddress
    dsimp only
    split
    next => exact idle
    next node _ => exact (tasks_register bench node.device address id).trans idle
  | detach id =>
    unfold Bench.use Bench.detach
    dsimp only
    split
    next => exact idle
    next => exact idle
  | signal there message =>
    have cleared : { bench with answer := none }.tasks = [] := idle
    exact tasks_execute cleared (List.forall_mem_singleton.mpr trivial)
  | signalFrom id destination payload flags ttl =>
    unfold Bench.use Bench.signalFrom
    dsimp only
    split
    next => exact idle
    next node _ =>
      have cleared : { bench with speaker := some id, answer := none }.tasks = [] := idle
      exact tasks_execute cleared (List.forall_mem_singleton.mpr trivial)
  | ingest there bytes => exact tasks_execute idle (List.forall_mem_singleton.mpr trivial)
  | receive there frame => exact tasks_execute idle (List.forall_mem_singleton.mpr rfl)
  | poke there address =>
    unfold Bench.use Bench.poke
    dsimp only
    split
    next => exact idle
    next found _ =>
      split
      next => exact idle
      next handler _ => exact tasks_finish (calm.enter handler _).calm.orderly
  | ask there request =>
    unfold Bench.use Bench.ask
    dsimp only
    split
    next => exact idle
    next => exact idle
  | resetWindow there =>
    unfold Bench.use Bench.resetWindow
    dsimp only
    split
    next => exact idle
    next => exact idle
  | takeWire there =>
    unfold Bench.use Bench.takeWire
    dsimp only
    split
    next => exact idle
    next => exact idle
  | takeLog => exact idle

/-- Whatever is asked of a bench, it is done with it in the end. -/
theorem tasks_useAll (idle : bench.tasks = []) (uses : List Use) : (bench.useAll uses).tasks = [] := by
  induction uses generalizing bench with
  | nil => exact idle
  | cons use uses ih => exact ih (tasks_use idle use)

/-- Whatever is asked of a bench, some moves do what has become of the bus of a device, and carry what its line has
taken. All their calls have returned. -/
theorem exists_traffic {config : BusConfig} (idle : bench.tasks = []) (present : bench.devices[device]? = some found)
    (fresh : found.bus = .ofConfig config) (unused : found.wire.capture.bytes = [])
    (interruptions : ∀ pair ∈ found.interruptions, pair.2.asksQueue = false) {uses : List Use}
    (fair : ∀ use ∈ uses, use.Fair device) : ∃ moves later,
      let traffic := (Traffic.ofConfig config).run moves
      (bench.useAll uses).devices[device]? = some later ∧ later.bus = traffic.bus ∧
        handedOut device bench uses ++ later.wire.capture.bytes = ((Traffic.ofConfig config).history moves).carriage ∧
        ∀ call ∈ traffic.calls, ∃ result, call = .returned result := by
  have start : bench.Follows device found [] (.ofConfig config) := by
    constructor
    case toHosts => exact ⟨present, fresh, interruptions, idle ▸ List.forall_mem_nil _⟩
    case pending =>
      rw [idle]
      rfl
    case awaits => exact .nil
  obtain ⟨moves, later, rest, follows, carried⟩ := start.useAll fair
  rw [unused, List.nil_append] at carried
  refine ⟨moves, later, follows.present, follows.bus, carried, ?_⟩
  intro call member
  have pending := follows.pending
  rw [tasks_useAll idle uses] at pending
  obtain ⟨place, here⟩ := List.mem_iff_getElem?.mp member
  rcases follows.awaits.others place call here with waits | returned
  · rw [List.map_eq_nil_iff.mp pending.symm] at waits
    cases waits
  · exact returned

/-- So nothing is left in the queue of the device, and the line is back in its slot. -/
theorem resting_useAll {config : BusConfig} (idle : bench.tasks = []) (present : bench.devices[device]? = some found)
    (fresh : found.bus = .ofConfig config) (unused : found.wire.capture.bytes = [])
    (interruptions : ∀ pair ∈ found.interruptions, pair.2.asksQueue = false) {uses : List Use}
    (fair : ∀ use ∈ uses, use.Fair device) :
    ∃ later, (bench.useAll uses).devices[device]? = some later ∧ later.bus.Resting := by
  obtain ⟨moves, later, here, same, _, returned⟩ := exists_traffic idle present fresh unused interruptions fair
  refine ⟨later, here, ?_⟩
  rw [same]
  cases Traffic.single_run config moves with
  | resting rests nobody => exact rests
  | drained index drainer found holds alone =>
    obtain ⟨result, rfl⟩ := returned drainer (List.mem_of_getElem? found)
    cases holds.drains

end Hopline.Bench
