import Hopline.Proofs.Bus.Traffic
import Hopline.Proofs.Transmit.Queue

/-! One call at a time drains the queue. Whoever claims the drain is the only call that
may take the line, put it back, or stop draining, so the bus always agrees with where
that one call stands. -/

namespace Hopline

namespace Call

/-- True between claiming the drain and giving it up. -/
def drains : Call → Bool
  | .claiming .. | .stranded .. | .draining .. | .sending .. | .failing .. | .discarding .. | .returning ..
  | .releasing .. => true
  | _ => false

/-- True while the line is in the hands of the call. -/
def holdsLine : Call → Bool
  | .draining .. | .sending .. | .failing .. | .returning .. => true
  | _ => false

/-- True of a call that came for the line and did not find it. -/
def isStranded : Call → Bool
  | .stranded .. => true
  | _ => false

theorem drains_of_isStranded {call : Call} (stranded : call.isStranded = true) : call.drains = true := by
  cases call with
  | stranded => rfl
  | _ => cases stranded

end Call

/-- Nothing waits to be sent, and the line is in its slot. -/
structure Bus.Resting (bus : Bus) : Prop where
  draining : bus.queue.draining = false
  empty : bus.queue.bytes = []
  line : bus.lineHome = true

/-- The bus as its drainer left it. -/
structure Bus.DrainedBy (bus : Bus) (drainer : Call) : Prop where
  drains : drainer.drains = true
  found : drainer.isStranded = false
  draining : bus.queue.draining = true
  line : bus.lineHome = !drainer.holdsLine

/-- No call drains but the one at `index`, if that one does. -/
def DrainsOnly (calls : List Call) (index : Nat) : Prop :=
  ∀ (other : Nat) (call : Call), calls[other]? = some call → call.drains = true → other = index

/-- Nobody drains and the bus rests, or one call drains and nobody else does. -/
inductive Traffic.SingleDrainer (traffic : Traffic) : Prop
  | resting (rests : traffic.bus.Resting) (nobody : ∀ call ∈ traffic.calls, call.drains = false)
  | drained (index : Nat) (drainer : Call) (found : traffic.calls[index]? = some drainer)
    (holds : traffic.bus.DrainedBy drainer) (alone : DrainsOnly traffic.calls index)

/-- What the turn of a call that does not drain can do: it leaves the queue alone, it adds
to a queue that somebody else drains, or it becomes the drainer of an idle one. -/
inductive Bus.Passes (bus : Bus) (turn : Turn) : Prop
  | beside (queue : turn.bus.queue = bus.queue) (line : turn.bus.lineHome = bus.lineHome)
    (apart : turn.call.drains = false)
  | queues (busy : bus.queue.draining = true) (draining : turn.bus.queue.draining = true)
    (line : turn.bus.lineHome = bus.lineHome) (apart : turn.call.drains = false)
  | claims (idle : bus.queue.draining = false) (draining : turn.bus.queue.draining = true)
    (line : turn.bus.lineHome = bus.lineHome) (origin : Origin) (frame : Frame)
    (claimed : turn.call = .claiming origin frame)

namespace Bus

variable {bus : Bus} {call : Call} {turn : Turn} {alive : HandlerId → Bool}

@[simp] theorem queue_settle (bus : Bus) (origin : Origin) (frame : Frame) (result : Except FrameError Unit) :
    (bus.settle origin frame result).bus.queue = bus.queue := by
  cases result <;> cases origin <;> rfl

@[simp] theorem lineHome_settle (bus : Bus) (origin : Origin) (frame : Frame) (result : Except FrameError Unit) :
    (bus.settle origin frame result).bus.lineHome = bus.lineHome := by
  cases result <;> cases origin <;> rfl

@[simp] theorem drains_settle (bus : Bus) (origin : Origin) (frame : Frame) (result : Except FrameError Unit) :
    (bus.settle origin frame result).call.drains = false := by
  cases result <;> cases origin <;> rfl

theorem aside_route (bus : Bus) (alive : HandlerId → Bool) (origin : Origin) (frame : Frame) :
    (bus.route alive origin frame).bus.queue = bus.queue ∧ (bus.route alive origin frame).bus.lineHome = bus.lineHome ∧
      (bus.route alive origin frame).call.drains = false := by
  unfold route
  dsimp only
  split
  · exact ⟨rfl, rfl, rfl⟩
  · exact ⟨rfl, rfl, rfl⟩
  · split
    · exact ⟨rfl, rfl, rfl⟩
    · split
      · exact ⟨rfl, rfl, rfl⟩
      · split <;> exact ⟨rfl, rfl, rfl⟩

theorem passes_queueing (bus : Bus) (origin : Origin) (frame : Frame)
    (advanced : bus.advance alive (.queueing origin frame) = some turn) : bus.Passes turn := by
  have enqueued := bus.queue.enqueuesAs_enqueue frame
  unfold advance at advanced
  dsimp only at advanced
  generalize bus.queue.enqueue frame = result at enqueued advanced
  cases enqueued with
  | refused error events =>
    dsimp only at advanced
    obtain rfl := Option.some.inj advanced
    exact .beside (by simp only [queue_settle]) (by simp only [lineHome_settle]) (by simp only [drains_settle])
  | accepted wire events =>
    cases busy : bus.queue.draining with
    | true =>
      simp only [busy, Bool.not_true] at advanced
      obtain rfl := Option.some.inj advanced
      exact .queues busy (by simp only [queue_settle]) (by simp only [lineHome_settle])
        (by simp only [drains_settle])
    | false =>
      simp only [busy, Bool.not_false] at advanced
      obtain rfl := Option.some.inj advanced
      exact .claims busy rfl rfl origin frame rfl

theorem passes_advance (apart : call.drains = false) (advanced : bus.advance alive call = some turn) :
    bus.Passes turn := by
  cases call with
  | hearing byte =>
    cases advanced
    refine .beside rfl rfl ?_
    dsimp only
    split <;> rfl
  | routing origin frame =>
    cases advanced
    obtain ⟨queue, line, apart⟩ := bus.aside_route alive origin frame
    exact .beside queue line apart
  | handled origin frame =>
    cases advanced
    exact .beside rfl rfl rfl
  | queueing origin frame => exact bus.passes_queueing origin frame advanced
  | handling | returned => cases advanced
  | claiming | stranded | draining | sending | failing | discarding | returning | releasing => cases apart

/-- The drainer stays the drainer until it leaves an empty queue behind. -/
theorem advance_drainer (holds : bus.DrainedBy call) (advanced : bus.advance alive call = some turn) :
    turn.bus.DrainedBy turn.call ∨ turn.bus.Resting ∧ turn.call.drains = false := by
  obtain ⟨drains, found, draining, line⟩ := holds
  unfold advance at advanced
  cases call with
  | hearing | routing | handling | handled | queueing | returned => cases drains
  | stranded => cases found
  | sending => cases advanced
  | claiming origin frame =>
    have home : bus.lineHome = true := line
    simp only [home, ↓reduceIte] at advanced
    obtain rfl := Option.some.inj advanced
    exact .inl ⟨rfl, rfl, draining, rfl⟩
  | draining origin frame sent =>
    unfold TransmitQueue.pop at advanced
    cases waiting : bus.queue.bytes with
    | nil =>
      simp only [waiting] at advanced
      obtain rfl := Option.some.inj advanced
      exact .inl ⟨rfl, rfl, draining, line⟩
    | cons byte rest =>
      simp only [waiting] at advanced
      obtain rfl := Option.some.inj advanced
      exact .inl ⟨rfl, rfl, draining, line⟩
  | failing origin frame sent error =>
    obtain rfl := Option.some.inj advanced
    exact .inl ⟨rfl, rfl, draining, rfl⟩
  | discarding origin frame error =>
    obtain rfl := Option.some.inj advanced
    exact .inr ⟨⟨rfl, rfl, line⟩, rfl⟩
  | returning origin frame =>
    obtain rfl := Option.some.inj advanced
    exact .inl ⟨rfl, rfl, draining, rfl⟩
  | releasing origin frame =>
    unfold TransmitQueue.release at advanced
    cases waiting : bus.queue.bytes with
    | nil =>
      simp only [waiting, List.isEmpty_nil, ↓reduceIte] at advanced
      obtain rfl := Option.some.inj advanced
      refine .inr ⟨⟨?_, ?_, ?_⟩, drains_settle _ origin frame _⟩
      · rw [queue_settle]
      · rw [queue_settle]
      · rw [lineHome_settle]
        exact line
    | cons byte rest =>
      simp only [waiting, List.isEmpty_cons, Bool.false_eq_true, ↓reduceIte] at advanced
      obtain rfl := Option.some.inj advanced
      exact .inl ⟨rfl, rfl, draining, line⟩

end Bus

theorem Call.Begins.apart {call : Call} (begins : call.Begins) : call.drains = false := by
  cases begins <;> rfl

/-- Waiting for an answer, or getting one, changes nothing about who drains. -/
theorem Call.Resumes.keeps {call next : Call} (answered : call.Resumes next) :
    next.drains = call.drains ∧ next.holdsLine = call.holdsLine ∧ next.isStranded = false := by
  cases answered <;> exact ⟨rfl, rfl, rfl⟩

section

variable {calls : List Call} {index place : Nat} {next : Call}

theorem drainsOnly_of_nobody (nobody : ∀ call ∈ calls, call.drains = false) (index : Nat) : DrainsOnly calls index := by
  intro other call here drains
  rw [nobody call (List.mem_of_getElem? here)] at drains
  cases drains

theorem DrainsOnly.set_self (alone : DrainsOnly calls index) (next : Call) : DrainsOnly (calls.set index next) index := by
  intro other call here drains
  by_contra elsewhere
  rw [List.getElem?_set_ne (Ne.symm elsewhere)] at here
  exact elsewhere (alone other call here drains)

theorem DrainsOnly.set_apart (alone : DrainsOnly calls place) (apart : next.drains = false) :
    DrainsOnly (calls.set index next) place := by
  intro other call here drains
  rw [List.getElem?_set] at here
  split at here
  next same =>
    split at here
    · cases here
      rw [apart] at drains
      cases drains
    · cases here
  next => exact alone other call here drains

theorem DrainsOnly.append (alone : DrainsOnly calls place) (apart : next.drains = false) :
    DrainsOnly (calls ++ [next]) place := by
  intro other call here drains
  by_cases old : other < calls.length
  · exact alone other call ((List.getElem?_append_left old).symm.trans here) drains
  · have member := List.mem_of_getElem? ((List.getElem?_append_right (Nat.le_of_not_lt old)).symm.trans here)
    rw [List.mem_singleton.mp member, apart] at drains
    cases drains

/-- When the only call that drains stops, nobody does. -/
theorem DrainsOnly.nobody (alone : DrainsOnly calls index) (inside : index < calls.length)
    (apart : next.drains = false) : ∀ call ∈ calls.set index next, call.drains = false := by
  intro call member
  rw [Bool.eq_false_iff]
  intro drains
  obtain ⟨other, here⟩ := List.getElem?_of_mem member
  obtain rfl := alone.set_self next other call here drains
  rw [List.getElem?_set_self inside] at here
  cases here
  rw [apart] at drains
  cases drains

end

namespace Traffic

variable {bus : Bus} {calls : List Call} {index : Nat} {call next : Call}

theorem single_begins (single : SingleDrainer ⟨bus, calls⟩) (apart : call.drains = false) :
    SingleDrainer ⟨bus, calls ++ [call]⟩ := by
  cases single with
  | resting rests nobody =>
    refine .resting rests ?_
    intro other member
    rcases List.mem_append.mp member with old | new
    · exact nobody other old
    · rw [List.mem_singleton.mp new]
      exact apart
  | drained index drainer found holds alone =>
    have inside := (List.getElem?_eq_some_iff.mp found).1
    exact .drained index drainer ((List.getElem?_append_left inside).trans found) holds (alone.append apart)

theorem single_passes {turn : Turn} (single : SingleDrainer ⟨bus, calls⟩) (found : calls[index]? = some call)
    (apart : call.drains = false) (passes : bus.Passes turn) :
    SingleDrainer ⟨turn.bus, calls.set index turn.call⟩ := by
  have inside := (List.getElem?_eq_some_iff.mp found).1
  cases single with
  | resting rests nobody =>
    have alone := drainsOnly_of_nobody nobody index
    cases passes with
    | beside queue line aside =>
      have rests : turn.bus.Resting := ⟨queue ▸ rests.draining, queue ▸ rests.empty, line.trans rests.line⟩
      exact .resting rests (alone.nobody inside aside)
    | queues busy =>
      rw [show bus.queue.draining = false from rests.draining] at busy
      cases busy
    | claims idle draining line origin frame claimed =>
      have holds : turn.bus.DrainedBy turn.call := by
        rw [claimed]
        exact ⟨rfl, rfl, draining, line.trans rests.line⟩
      exact .drained index turn.call (List.getElem?_set_self inside) holds (alone.set_self turn.call)
  | drained place drainer there holds alone =>
    have elsewhere : index ≠ place := by
      rintro rfl
      cases found.symm.trans there
      rw [holds.drains] at apart
      cases apart
    have still : (calls.set index turn.call)[place]? = some drainer := (List.getElem?_set_ne elsewhere).trans there
    cases passes with
    | beside queue line aside =>
      have holds : turn.bus.DrainedBy drainer :=
        ⟨holds.drains, holds.found, queue ▸ holds.draining, line.trans holds.line⟩
      exact .drained place drainer still holds (alone.set_apart aside)
    | queues busy draining line aside =>
      have holds : turn.bus.DrainedBy drainer := ⟨holds.drains, holds.found, draining, line.trans holds.line⟩
      exact .drained place drainer still holds (alone.set_apart aside)
    | claims idle =>
      rw [show bus.queue.draining = true from holds.draining] at idle
      cases idle

/-- The drainer takes its turn: it goes on draining, or it leaves the bus at rest. -/
theorem single_drains {turn : Turn} (single : SingleDrainer ⟨bus, calls⟩) (found : calls[index]? = some call)
    (drains : call.drains = true)
    (drained : bus.DrainedBy call → turn.bus.DrainedBy turn.call ∨ turn.bus.Resting ∧ turn.call.drains = false) :
    SingleDrainer ⟨turn.bus, calls.set index turn.call⟩ := by
  have inside := (List.getElem?_eq_some_iff.mp found).1
  cases single with
  | resting rests nobody =>
    rw [nobody call (List.mem_of_getElem? found)] at drains
    cases drains
  | drained place drainer there holds alone =>
    obtain rfl := alone index call found drains
    cases found.symm.trans there
    rcases drained holds with holds | ⟨rests, aside⟩
    · exact .drained index turn.call (List.getElem?_set_self inside) holds (alone.set_self turn.call)
    · exact .resting rests (alone.nobody inside aside)

theorem single_effect {before after : Traffic} (effect : Effect before after) (single : SingleDrainer before) :
    SingleDrainer after := by
  obtain ⟨bus, calls⟩ := before
  cases effect with
  | nothing => exact single
  | begins call entry => exact single_begins single entry.apart
  | @turns index call alive turn found advanced =>
    cases drains : call.drains with
    | false => exact single_passes single found drains (Bus.passes_advance drains advanced)
    | true => exact single_drains single found drains fun holds => Bus.advance_drainer holds advanced
  | @resumes index call next found answered =>
    obtain ⟨same, line, calm⟩ := answered.keeps
    let turn : Turn := { bus, call := next, events := [] }
    cases drains : call.drains with
    | false =>
      have passes : bus.Passes turn := .beside rfl rfl (same.trans drains)
      exact single_passes single found drains passes
    | true =>
      have drained (holds : bus.DrainedBy call) : turn.bus.DrainedBy turn.call :=
        ⟨same.trans drains, calm, holds.draining, line ▸ holds.line⟩
      exact single_drains single found drains fun holds => .inl (drained holds)
  | edits registry window =>
    cases single with
    | resting rests nobody => exact .resting ⟨rests.draining, rests.empty, rests.line⟩ nobody
    | drained index drainer found holds alone =>
      exact .drained index drainer found ⟨holds.drains, holds.found, holds.draining, holds.line⟩ alone

theorem single_run (config : BusConfig) (moves : List Move) : SingleDrainer ((ofConfig config).run moves) := by
  apply run_induction
  · exact .resting ⟨rfl, rfl, rfl⟩ fun call member => by cases member
  · intro before after effect single
    exact single_effect effect single

/-- Whatever calls were made, and however their turns and the failures of the line fell:
at most one call drains, bytes wait only while one does, no call ever misses the line, and
a bus that nobody is in has sent or dropped everything. -/
theorem single_drainer (config : BusConfig) (moves : List Move) :
    let traffic := (ofConfig config).run moves
    (∀ (first second : Nat) (call other : Call), traffic.calls[first]? = some call →
      traffic.calls[second]? = some other → call.drains = true → other.drains = true → first = second) ∧
    (traffic.bus.queue.draining = true ↔ ∃ call ∈ traffic.calls, call.drains = true) ∧
    (traffic.bus.queue.draining = false → traffic.bus.queue.bytes = [] ∧ traffic.bus.lineHome = true) ∧
    (∀ call ∈ traffic.calls, call.isStranded = false) ∧
    ((∀ call ∈ traffic.calls, ∃ result, call = .returned result) →
      traffic.bus.queue.bytes = [] ∧ traffic.bus.queue.draining = false ∧ traffic.bus.lineHome = true) := by
  intro traffic
  cases single_run config moves with
  | resting rests nobody =>
    refine ⟨?_, ?_, fun _ => ⟨rests.empty, rests.line⟩, ?_, fun _ => ⟨rests.empty, rests.draining, rests.line⟩⟩
    · intro first second call other here there drains _
      rw [nobody call (List.mem_of_getElem? here)] at drains
      cases drains
    · constructor
      · intro draining
        rw [show traffic.bus.queue.draining = false from rests.draining] at draining
        cases draining
      · rintro ⟨call, member, drains⟩
        rw [nobody call member] at drains
        cases drains
    · intro call member
      rw [Bool.eq_false_iff]
      intro stranded
      have drains := Call.drains_of_isStranded stranded
      rw [nobody call member] at drains
      cases drains
  | drained index drainer found holds alone =>
    have member := List.mem_of_getElem? found
    refine ⟨?_, ⟨fun _ => ⟨drainer, member, holds.drains⟩, fun _ => holds.draining⟩, ?_, ?_, ?_⟩
    · intro first second call other here there drains drains'
      exact (alone first call here drains).trans (alone second other there drains').symm
    · intro idle
      rw [show traffic.bus.queue.draining = true from holds.draining] at idle
      cases idle
    · intro call member
      rw [Bool.eq_false_iff]
      intro stranded
      obtain ⟨other, here⟩ := List.getElem?_of_mem member
      obtain rfl := alone other call here (Call.drains_of_isStranded stranded)
      cases found.symm.trans here
      rw [holds.found] at stranded
      cases stranded
    · intro outside
      obtain ⟨result, rfl⟩ := outside drainer member
      cases holds.drains

end Traffic

end Hopline
