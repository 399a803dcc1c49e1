import Hopline.Proofs.Bench.Effort

/-! A bench comes to rest. Calls make calls only as long as there are reactions and interruptions left, and each is used
up when it is made. So with every step less is left to do, as long as no two calls have the same line and no queue is
given up that is not empty. -/

namespace Hopline

open Bench

/-- The line of a device is in its slot, or a call holds it, but not both and no two calls. -/
def Bench.OneHand (bench : Bench) : Prop :=
  ∀ device found, bench.devices[device]? = some found →
    bench.tasks.countP (Task.holds device) + found.bus.lineHome.toNat ≤ 1

/-- Every line is in one hand, and no queue is being given up. -/
structure Bench.Calm (bench : Bench) : Prop where
  alone : bench.OneHand
  pausing : ∀ task ∈ bench.tasks, task.givesUp = false

/-- Every line is in one hand, and only the call whose turn it is may be giving a queue up, which is empty. -/
structure Bench.Orderly (bench : Bench) : Prop where
  alone : bench.OneHand
  pausing : ∀ task ∈ bench.tasks.tail, task.givesUp = false
  spent : ∀ device call report tasks found, bench.tasks = .run device call report :: tasks → call.givesUp = true →
    bench.devices[device]? = some found → found.bus.queue.bytes = []

/-- After a step that was worth so much a bench is calm, and has less to do. -/
structure Bench.Eases (bench : Bench) (worth : Nat) (after : Bench) : Prop where
  calm : after.Calm
  less : after.effort < bench.effort + worth

namespace Bench

variable {device : Nat} {found : Device} {bench middle after : Bench} {task : Task} {tasks more : List Task}
  {worth lower : Nat}

theorem Calm.congr (calm : bench.Calm) (devices : after.devices = bench.devices) (queued : after.tasks = bench.tasks) :
    after.Calm :=
  { alone := fun device found present => queued ▸ calm.alone device found (devices ▸ present)
    pausing := queued ▸ calm.pausing }

theorem Calm.orderly (calm : bench.Calm) : bench.Orderly := by
  constructor
  case alone => exact calm.alone
  case pausing => exact fun task member => calm.pausing task (List.mem_of_mem_tail member)
  case spent =>
    intro device call report tasks found split ends
    have pausing := calm.pausing (.run device call report) (split ▸ List.mem_cons_self)
    cases ends.symm.trans pausing

theorem Calm.schedule (calm : bench.Calm) (aside : ∀ task ∈ more, task.Aside) : (bench.schedule more).Calm := by
  constructor
  case alone =>
    intro device found present
    have off : more.countP (Task.holds device) = 0 := by
      apply List.countP_eq_zero.mpr
      intro task member
      rw [(aside task member).holds]
      exact Bool.false_ne_true
    rw [Bench.schedule, List.countP_append, off, Nat.zero_add]
    exact calm.alone device found present
  case pausing => exact List.forall_mem_append.mpr ⟨fun task member => (aside task member).givesUp, calm.pausing⟩

theorem Calm.setBus (calm : bench.Calm) (present : bench.devices[device]? = some found) {bus : Bus}
    (line : bus.lineHome = found.bus.lineHome) : (bench.setBus device bus).Calm := by
  constructor
  case alone =>
    intro there other here
    by_cases own : device = there
    · subst own
      cases (devices_setBus present bus).symm.trans here
      dsimp only
      rw [line]
      exact calm.alone device found present
    · rw [devices_setBus_of_ne own] at here
      exact calm.alone there other here
  case pausing => exact calm.pausing

theorem Calm.eases (calm : bench.Calm) (positive : 0 < worth) : bench.Eases worth bench :=
  ⟨calm, Nat.lt_add_of_pos_right positive⟩

theorem Calm.eases_schedule (calm : bench.Calm) (aside : ∀ task ∈ more, task.Aside)
    (less : (more.map Task.duty).sum < worth) : bench.Eases worth (bench.schedule more) := by
  refine ⟨calm.schedule aside, ?_⟩
  rw [effort_schedule bench aside]
  exact Nat.add_lt_add_left less _

theorem Eases.conclude (eases : bench.Eases worth after) (report : Report) (reply : Reply) :
    bench.Eases worth (after.conclude report reply) := by
  have same : (after.conclude report reply).effort = after.effort := by
    cases report <;> rfl
  exact ⟨eases.calm.congr (devices_conclude ..) (tasks_conclude ..), same ▸ eases.less⟩

/-- What was not needed in between counts towards the rest. -/
theorem Eases.since (eases : middle.Eases lower after) (paid : middle.effort + lower ≤ bench.effort + worth) :
    bench.Eases worth after :=
  ⟨eases.calm, eases.less.trans_le paid⟩

theorem Calm.send (calm : bench.Calm) (there : Nat) (message : Message) (report : Report) :
    bench.Eases (Task.duty (.send there message report)) (bench.perform (.send there message report)) := by
  have begins := Call.begins_ofMessage message
  unfold Call.ofMessage at begins
  unfold perform
  dsimp only
  cases signalled : Call.signal message with
  | ok call =>
    rw [signalled] at begins
    apply calm.eases_schedule
    · exact List.forall_mem_singleton.mpr begins.apart
    · have bound := call.duty_le
      simp only [List.map_singleton, List.sum_singleton, Task.duty, Task.cost, callCost_eq]
      omega
  | error error => exact (calm.eases (Nat.succ_pos _)).conclude report _

theorem Calm.feed (calm : bench.Calm) (there : Nat) (bytes : Bytes) (report : Report) :
    bench.Eases (Task.duty (.feed there bytes report)) (bench.perform (.feed there bytes report)) := by
  unfold perform
  cases bytes with
  | nil => exact (calm.eases (Nat.succ_pos _)).conclude report .done
  | cons byte bytes =>
    apply calm.eases_schedule
    · exact List.forall_mem_cons.mpr ⟨rfl, List.forall_mem_singleton.mpr trivial⟩
    · simp only [List.map_cons, List.map_nil, List.sum_cons, List.sum_nil, Task.duty, Task.cost, Call.ingest, Call.duty,
        feedCost, List.length_cons, Nat.mul_succ, callCost_eq]
      omega

theorem Calm.modify (calm : bench.Calm) (id : NodeId) (change : Node → Node)
    (same : ∀ node, (change node).cost = node.cost) :
    { bench with nodes := bench.nodes.modify id change }.Calm ∧
      { bench with nodes := bench.nodes.modify id change }.effort = bench.effort := by
  have kept := bench.effort_nodes (bench.nodes.modify id change)
  rw [sum_map_modify_of_same bench.nodes id same] at kept
  exact ⟨calm.congr rfl rfl, Nat.add_right_cancel kept⟩

theorem Calm.register (calm : bench.Calm) (there : Nat) (address : Address) (handler : HandlerId) :
    (bench.register there address handler).Calm ∧ (bench.register there address handler).effort = bench.effort := by
  unfold Bench.register
  split
  next => exact ⟨calm, rfl⟩
  next found present =>
    have line : (found.bus.register bench.alive address handler).1.lineHome = found.bus.lineHome := rfl
    refine ⟨(calm.setBus present line).congr rfl rfl, ?_⟩
    exact Nat.add_right_cancel (effort_setBus present (found.bus.register bench.alive address handler).1)

theorem Calm.addNode (calm : bench.Calm) (there : Nat) (address : Address) (reaction : Reaction) :
    (bench.addNode there address reaction 0).1.Calm ∧
      (bench.addNode there address reaction 0).1.effort = bench.effort := by
  let node : Node := { device := there, address, reaction, limit := 0, acted := 0, attached := true, running := 0 }
  have grown : { bench with nodes := bench.nodes ++ [node] }.Calm := calm.congr rfl rfl
  have more := bench.effort_nodes (bench.nodes ++ [node])
  have free : node.cost = 0 := Nat.zero_mul _
  rw [List.map_append, List.sum_append, List.map_singleton, List.sum_singleton, free] at more
  obtain ⟨calm, same⟩ := grown.register there address bench.nodes.length
  exact ⟨calm, same.trans (Nat.add_right_cancel more)⟩

theorem Calm.detach (calm : bench.Calm) (id : NodeId) :
    (bench.detach id).1.Calm ∧ (bench.detach id).1.effort = bench.effort := by
  unfold Bench.detach
  split
  next => exact ⟨calm, rfl⟩
  next => exact calm.modify id _ fun _ => rfl

theorem Calm.react (calm : bench.Calm) (id : NodeId) {node : Node} (here : bench.nodes[id]? = some node)
    (frame : Frame) : bench.Eases 1 (bench.react id node frame) := by
  unfold Bench.react
  split
  next => exact calm.eases Nat.one_pos
  next acts =>
    have paid := effort_count here (Nat.lt_of_not_le fun spent => acts (.inl spent))
    have counted :
        { bench with nodes := bench.nodes.modify id fun node => { node with acted := node.acted + 1 } }.Calm :=
      calm.congr rfl rfl
    dsimp only
    cases reaction : node.reaction with
    | record =>
      refine (counted.eases Nat.one_pos).since ?_
      omega
    | reply | relay | feed =>
      rw [reaction] at paid
      refine (counted.eases_schedule ?_ (Nat.lt_succ_self _)).since ?_
      · exact List.forall_mem_singleton.mpr trivial
      · simp only [List.map_singleton, List.sum_singleton, Task.duty, Task.cost, Reaction.cost] at paid ⊢
        omega
    | detach target =>
      obtain ⟨detached, same⟩ := counted.detach target
      refine ((detached.eases Nat.one_pos).conclude _ _).since ?_
      omega
    | attach address =>
      obtain ⟨attached, same⟩ := counted.addNode node.device address .record
      refine ((attached.eases Nat.one_pos).conclude _ _).since ?_
      omega

theorem Calm.handle (calm : bench.Calm) (id : NodeId) (frame : Frame) :
    bench.Eases (Task.duty (.handle id frame)) (bench.perform (.handle id frame)) := by
  unfold perform
  dsimp only
  split
  next => exact calm.eases Nat.one_pos
  next node here =>
    have logged : { bench with log := bench.log.push (.heard id frame) }.Calm := calm.congr rfl rfl
    exact (logged.react id here frame).since (Nat.le_refl _)

theorem Calm.leave (calm : bench.Calm) (id : NodeId) :
    bench.Eases (Task.duty (.leave id)) (bench.perform (.leave id)) := by
  obtain ⟨left, same⟩ := calm.modify id (fun node => { node with running := node.running - 1 }) fun _ => rfl
  refine (left.eases Nat.one_pos).since ?_
  rw [same]
  exact Nat.le_refl _

theorem Calm.interrupt (calm : bench.Calm) (there call : Nat) (interruption : Interruption) :
    bench.Eases (Task.duty (.interrupt there call interruption))
      (bench.perform (.interrupt there call interruption)) := by
  unfold perform
  dsimp only
  split
  next => exact calm.eases (Nat.succ_pos _)
  next struck present =>
    cases interruption with
    | signal | ingest =>
      apply calm.eases_schedule
      · exact List.forall_mem_singleton.mpr trivial
      · simp only [List.map_singleton, List.sum_singleton, Task.duty, Task.cost, Interruption.cost]
        omega
    | queue request =>
      let bus := { struck.bus with queue := (struck.bus.queue.serve Capture.empty request).queue }
      have served : (bench.setBus there bus).Calm := calm.setBus present rfl
      have longer : bus.queue.length ≤ struck.bus.queue.length + maxFrame := length_serve_le struck.bus.queue request
      have paid := effort_setBus present bus
      have eases : bench.Eases (Task.duty (.interrupt there call (.queue request))) (bench.setBus there bus) := by
        refine ⟨served, ?_⟩
        simp only [Task.duty, Task.cost, Interruption.cost, callCost_eq]
        omega
      have noted : bench.Eases (Task.duty (.interrupt there call (.queue request)))
          ((bench.setBus there bus).note (struck.bus.queue.serve Capture.empty request).events) :=
        ⟨eases.calm.congr rfl rfl, eases.less⟩
      exact noted.conclude (.interruption call) _

theorem Calm.enter (calm : bench.Calm) (id : NodeId) (frame : Frame) : bench.Eases 3 (bench.enter id frame) := by
  obtain ⟨running, same⟩ := calm.modify id (fun node => { node with running := node.running + 1 }) fun _ => rfl
  have aside : ∀ task ∈ [Task.handle id frame, .leave id], task.Aside :=
    List.forall_mem_cons.mpr ⟨trivial, List.forall_mem_singleton.mpr trivial⟩
  exact (running.eases_schedule aside (Nat.lt_succ_self 2)).since (same ▸ Nat.le_refl _)

theorem Calm.handling (calm : bench.Calm) {report : Report} (origin : Origin) (frame : Frame) (handler : HandlerId) :
    bench.Eases 5 ((bench.schedule [.run device (.handled origin frame) report]).enter handler frame) := by
  have aside : ∀ task ∈ [Task.run device (.handled origin frame) report], task.Aside :=
    List.forall_mem_singleton.mpr rfl
  refine ((calm.schedule aside).enter handler frame).since ?_
  rw [effort_schedule bench aside]
  exact Nat.le_refl _

theorem Orderly.calm (orderly : bench.Orderly) (split : bench.tasks = task :: tasks) : { bench with tasks }.Calm := by
  constructor
  case alone =>
    intro device found present
    have alone := orderly.alone device found present
    rw [split, List.countP_cons] at alone
    dsimp only
    omega
  case pausing =>
    have pausing := orderly.pausing
    rw [split] at pausing
    exact pausing

theorem Eases.orderly (split : bench.tasks = task :: tasks)
    (silent : ∀ device found, bench.devices[device]? = some found → task.transmits device = false)
    (eases : { bench with tasks }.Eases task.duty after) : after.Orderly ∧ after.effort < bench.effort :=
  ⟨eases.calm.orderly, effort_off split silent ▸ eases.less⟩

theorem Task.holds_of_transmits (transmits : task.transmits device = true) : task.holds device = true := by
  cases task with
  | transmit there call report =>
    cases call with
    | sending => exact (Bool.and_true _).trans transmits
    | _ => cases transmits
  | _ => cases transmits

theorem pending_eq_zero (alone : tasks.countP (Task.holds device) = 0) : tasks.countP (Task.transmits device) = 0 := by
  have fewer : tasks.countP (Task.transmits device) ≤ tasks.countP (Task.holds device) :=
    List.countP_mono_left fun _ _ => Task.holds_of_transmits
  exact Nat.eq_zero_of_le_zero (alone ▸ fewer)

section Call

variable {call : Call} {report : Report}

theorem pending_run (there : Nat) (call : Call) (report : Report) (tasks : List Task) :
    (Task.run there call report :: tasks).countP (Task.transmits device) = tasks.countP (Task.transmits device) := rfl

theorem hands_cons (device : Nat) (task : Task) (tasks : List Task) :
    (task :: tasks).countP (Task.holds device) = (task.holds device).toNat + tasks.countP (Task.holds device) := by
  rw [List.countP_cons, Nat.add_comm]
  cases task.holds device <;> rfl

theorem holds_self (call : Call) : (device == device && call.holdsLine) = call.holdsLine := by
  rw [BEq.rfl, Bool.true_and]

theorem holds_elsewhere {there : Nat} (apart : there ≠ device) (call : Call) :
    (device == there && call.holdsLine) = false := by
  rw [beq_eq_false_iff_ne.mpr apart.symm, Bool.false_and]

/-- Behind the first task, and beside the device where it has gone on, nothing changes hands. -/
theorem Orderly.alone_after (orderly : bench.Orderly) (split : bench.tasks = task :: tasks) {next : Task}
    (queued : after.tasks = next :: tasks) {later : Device} (present : bench.devices[device]? = some found)
    (here : after.devices[device]? = some later)
    (beside : ∀ other ≠ device, after.devices[other]? = bench.devices[other]? ∧ next.holds other = task.holds other)
    (line : (task.holds device).toNat + found.bus.lineHome.toNat ≤ 1 →
      (next.holds device).toNat + later.bus.lineHome.toNat ≤ (task.holds device).toNat + found.bus.lineHome.toNat) :
    after.OneHand := by
  intro there other found
  rw [queued, hands_cons]
  by_cases own : there = device
  · subst own
    cases here.symm.trans found
    have alone := orderly.alone there _ present
    rw [split, hands_cons] at alone
    omega
  · obtain ⟨same, hands⟩ := beside there own
    have alone := orderly.alone there other (same.symm.trans found)
    rw [split, hands_cons, ← hands] at alone
    exact alone

theorem Orderly.turn {turn : Turn} (orderly : bench.Orderly) (split : bench.tasks = .run device call report :: tasks)
    (present : bench.devices[device]? = some found) (advanced : found.bus.advance bench.alive call = some turn) :
    let after := (({ bench with tasks }.setBus device turn.bus).note turn.events).schedule
      [.run device turn.call report]
    after.Orderly ∧ after.effort < bench.effort := by
  intro after
  have spends := Bus.spends_advance advanced fun ends => orderly.spent _ _ _ _ _ split ends present
  have here : after.devices[device]? = some { found with bus := turn.bus } := devices_setBus present turn.bus
  have beside (other : Nat) (apart : other ≠ device) : after.devices[other]? = bench.devices[other]? :=
    devices_setBus_of_ne apart.symm turn.bus
  have queued : after.tasks = .run device turn.call report :: tasks := rfl
  constructor
  · constructor
    case alone =>
      apply orderly.alone_after split queued present here
      · intro other apart
        exact ⟨beside other apart, (holds_elsewhere apart turn.call).trans (holds_elsewhere apart call).symm⟩
      · simp only [Task.holds, holds_self]
        exact spends.line
    case pausing =>
      have pausing := orderly.pausing
      rw [split] at pausing
      exact pausing
    case spent =>
      intro there next report later other resumed ends present
      cases queued.symm.trans resumed
      cases here.symm.trans present
      exact spends.spent ends
  · have change := effort_after split queued (List.length_modify ..) rfl fun other apart => ⟨beside other apart, rfl⟩
    have strikes (first : Nat) : ({ found with bus := turn.bus } : Device).strikes first = found.strikes first := rfl
    have less := spends.less
    rw [burden_of_present present, burden_of_present here, queued, split, pending_run, pending_run, strikes] at change
    dsimp only [Task.duty] at change
    omega

variable {origin : Origin} {frame : Frame} {sent : Nat} {byte : UInt8}

/-- A call that holds the line is the only one that has it take a byte. -/
theorem Orderly.nothing_pending (orderly : bench.Orderly) (split : bench.tasks = task :: tasks)
    (present : bench.devices[device]? = some found) (holds : task.holds device = true) :
    tasks.countP (Task.transmits device) = 0 := by
  apply pending_eq_zero
  have alone := orderly.alone device found present
  rw [split, hands_cons, holds, Bool.toNat_true] at alone
  omega

theorem Orderly.sending (orderly : bench.Orderly)
    (split : bench.tasks = .run device (.sending origin frame sent byte) report :: tasks)
    (present : bench.devices[device]? = some found) :
    let after := { bench with tasks }.schedule
      (found.striking device ++ [Task.transmit device (.sending origin frame sent byte) report])
    after.Calm ∧ after.effort < bench.effort := by
  intro after
  let offering := Task.transmit device (.sending origin frame sent byte) report
  let middle : Bench := { bench with tasks := offering :: tasks }
  have same : after = middle.schedule (found.striking device) := by
    simp only [after, middle, offering, Bench.schedule, List.append_assoc, List.singleton_append]
  have aside : ∀ task ∈ found.striking device, task.Aside := fun _ => Device.aside_of_striking
  have queued : middle.tasks = offering :: tasks := rfl
  have calm : middle.Calm := by
    constructor
    case alone =>
      exact orderly.alone_after split queued present present (fun _ _ => ⟨rfl, rfl⟩) fun _ => Nat.le_refl _
    case pausing => exact List.forall_mem_cons.mpr ⟨rfl, (orderly.calm split).pausing⟩
  have paid : middle.effort + ((found.striking device).map Task.duty).sum + 1 = bench.effort := by
    have change := effort_after split queued rfl rfl fun other apart => ⟨rfl, beq_eq_false_iff_ne.mpr apart.symm⟩
    have pending : middle.tasks.countP (Task.transmits device) = tasks.countP (Task.transmits device) + 1 :=
      List.countP_cons_of_pos BEq.rfl
    have nothing := orderly.nothing_pending split present ((holds_self _).trans rfl)
    have lighter : middle.burden device = _ := burden_of_present present
    rw [lighter, burden_of_present present, pending, split, pending_run, nothing, Nat.add_zero, Nat.zero_add,
      found.strikes_eq device] at change
    dsimp only [offering, Task.duty, Call.duty] at change
    omega
  rw [same]
  refine ⟨calm.schedule aside, ?_⟩
  rw [effort_schedule middle aside]
  omega

theorem Orderly.transmit (orderly : bench.Orderly)
    (split : bench.tasks = .transmit device (.sending origin frame sent byte) report :: tasks)
    (present : bench.devices[device]? = some found) :
    let next := (Call.sending origin frame sent byte).afterLine (found.wire.transmit byte).2
    let after := ({ bench with tasks }.setWire device (found.wire.transmit byte).1).schedule [.run device next report]
    after.Calm ∧ after.effort < bench.effort := by
  intro next after
  let wire := (found.wire.transmit byte).1
  have here : after.devices[device]? = some { found with wire } := devices_setWire present wire
  have beside (other : Nat) (apart : other ≠ device) : after.devices[other]? = bench.devices[other]? :=
    List.getElem?_modify_ne _ _ apart.symm
  have queued : after.tasks = .run device next report :: tasks := rfl
  obtain ⟨holds, goes, small⟩ := Call.afterLine_sending origin frame sent byte (found.wire.transmit byte).2
  have offered : (Task.transmit device (.sending origin frame sent byte) report).holds device = true :=
    (holds_self _).trans rfl
  have handed : (Task.run device next report).holds device = true := (holds_self next).trans holds
  constructor
  · constructor
    case alone =>
      apply orderly.alone_after split queued present here
      · intro other apart
        exact ⟨beside other apart, (holds_elsewhere apart _).trans (holds_elsewhere apart _).symm⟩
      · intro _
        rw [handed, offered]
    case pausing => exact List.forall_mem_cons.mpr ⟨goes, (orderly.calm split).pausing⟩
  · have change := effort_after split queued (List.length_modify ..) rfl fun other apart =>
      ⟨beside other apart, (beq_eq_false_iff_ne.mpr apart.symm).symm⟩
    have pending : bench.tasks.countP (Task.transmits device) = tasks.countP (Task.transmits device) + 1 := by
      rw [split]
      exact List.countP_cons_of_pos BEq.rfl
    have nothing := orderly.nothing_pending split present offered
    have attempts : wire.attempts = found.wire.attempts + 1 := attempts_transmit found.wire byte
    have bound : next.duty ≤ 4 := small
    have strikes (first : Nat) : ({ found with wire } : Device).strikes first = found.strikes first := rfl
    rw [burden_of_present present, burden_of_present here, strikes, pending, queued, pending_run, nothing, attempts,
      Nat.zero_add, Nat.add_zero] at change
    dsimp only [Task.duty] at change
    omega

theorem Orderly.run (orderly : bench.Orderly) (split : bench.tasks = .run device call report :: tasks) :
    ({ bench with tasks }.perform (.run device call report)).Orderly ∧
      ({ bench with tasks }.perform (.run device call report)).effort < bench.effort := by
  have calm := orderly.calm split
  have silent (other : Nat) (found : Device) (_ : bench.devices[other]? = some found) :
      (Task.run device call report).transmits other = false := rfl
  cases present : bench.devices[device]? with
  | none =>
    have gone : { bench with tasks }.perform (.run device call report) = { bench with tasks } := by
      unfold perform
      dsimp only
      rw [present]
    rw [gone]
    exact (calm.eases (Task.duty_pos _)).orderly split silent
  | some found =>
    cases advanced : found.bus.advance bench.alive call with
    | some turn =>
      have performed := @perform_turn device found { bench with tasks } call report turn present advanced
      rw [performed]
      exact orderly.turn split present advanced
    | none =>
      unfold perform
      dsimp only
      rw [present]
      cases Bus.waits_of_stuck advanced with
      | returned result => exact ((calm.eases Nat.one_pos).conclude report _).orderly split silent
      | handling origin frame handler => exact (calm.handling origin frame handler).orderly split silent
      | sending origin frame sent byte =>
        obtain ⟨calm, less⟩ := orderly.sending split present
        exact ⟨calm.orderly, less⟩

theorem Orderly.offer (orderly : bench.Orderly) (split : bench.tasks = .transmit device call report :: tasks) :
    ({ bench with tasks }.perform (.transmit device call report)).Orderly ∧
      ({ bench with tasks }.perform (.transmit device call report)).effort < bench.effort := by
  have calm := orderly.calm split
  unfold perform
  dsimp only
  split
  next found origin frame sent byte present =>
    obtain ⟨calm, less⟩ := orderly.transmit split present
    exact ⟨calm.orderly, less⟩
  next call _ _ nothing =>
    apply Eases.orderly split ?_ (calm.eases (Nat.succ_pos 4))
    intro there found present
    cases call with
    | sending origin frame sent byte =>
      apply beq_eq_false_iff_ne.mpr
      rintro rfl
      exact nothing found origin frame sent byte present rfl
    | _ => rfl

/-- Whatever the bench does next, less is left to do. -/
theorem Orderly.step (orderly : bench.Orderly) (split : bench.tasks = task :: tasks) :
    ({ bench with tasks }.perform task).Orderly ∧ ({ bench with tasks }.perform task).effort < bench.effort := by
  have calm := orderly.calm split
  cases task with
  | send there message report => exact (calm.send there message report).orderly split fun _ _ _ => rfl
  | feed there bytes report => exact (calm.feed there bytes report).orderly split fun _ _ _ => rfl
  | handle id frame => exact (calm.handle id frame).orderly split fun _ _ _ => rfl
  | leave id => exact (calm.leave id).orderly split fun _ _ _ => rfl
  | interrupt there call interruption => exact (calm.interrupt there call interruption).orderly split fun _ _ _ => rfl
  | run there call report => exact orderly.run split
  | transmit there call report => exact orderly.offer split

theorem tasks_proceed {steps : Nat} (orderly : bench.Orderly) (enough : bench.effort ≤ steps) :
    (Bench.proceed steps bench).tasks = [] := by
  induction steps generalizing bench with
  | zero =>
    cases split : bench.tasks with
    | nil => exact split
    | cons task tasks =>
      have less := (orderly.step split).2
      exact absurd (less.trans_le enough) (Nat.not_lt_zero _)
  | succ steps ih =>
    unfold Bench.proceed
    split
    next none => exact none
    next task tasks split =>
      obtain ⟨orderly, less⟩ := orderly.step split
      exact ih orderly (Nat.le_of_lt_succ (less.trans_le enough))

end Call

/-- A bench takes as many steps as it needs. -/
theorem tasks_finish (orderly : bench.Orderly) : bench.finish.tasks = [] :=
  tasks_proceed orderly bench.effort_le_stepsNeeded

theorem Calm.of_idle (idle : bench.tasks = []) : bench.Calm := by
  constructor
  case alone =>
    intro device found _
    rw [idle, List.countP_nil, Nat.zero_add]
    exact Bool.toNat_le _
  case pausing =>
    rw [idle]
    exact List.forall_mem_nil _

theorem tasks_execute (idle : bench.tasks = []) (aside : ∀ task ∈ more, task.Aside) : (bench.execute more).tasks = [] :=
  tasks_finish ((Calm.of_idle idle).schedule aside).orderly

end Bench

end Hopline
