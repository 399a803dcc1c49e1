import Hopline.Proofs.Bus.History

/-! What becomes of the messages on a bus. A call that carries a message goes on until the
message is settled, which happens in one turn: the turn counts it, and the call returns. -/

namespace Hopline

/-- What becomes of a message that a bus has taken on. -/
inductive Ending
  | delivered
  | expired
  /-- Its frame was queued, and no failure of the line came back to its call. -/
  | transmitted
  /-- The queue refused its frame. -/
  | refused (error : FrameError)
  /-- The line failed while its call drained the queue. -/
  | failed (error : LineError)
deriving DecidableEq

namespace Ending

/-- What the call returns. Nobody is told what became of a frame from the line. -/
def result (origin : Origin) (ending : Ending) : Except BusError Unit :=
  match origin, ending with
  | .sent, .refused error => .error (.frame error)
  | .sent, .failed error => .error (.frame (.line error))
  | _, _ => .ok ()

/-- The counters once it has been counted. -/
def count (origin : Origin) (counters : Counters) : Ending → Counters
  | .delivered => { counters with delivered := counters.delivered + 1 }
  | .expired => { counters with expired := counters.expired + 1 }
  | .transmitted =>
    match origin with
    | .sent => { counters with transmitted := counters.transmitted + 1 }
    | .received =>
      { counters with transmitted := counters.transmitted + 1, forwarded := counters.forwarded + 1 }
  | .refused _ | .failed _ => { counters with txErrors := counters.txErrors + 1 }

/-- What an attempt to queue the frame comes to. A call that has become the drainer goes on. -/
def ofClaim? : Except FrameError Bool → Option Ending
  | .ok true => none
  | .ok false => some .transmitted
  | .error error => some (.refused error)

end Ending

/-- The frame that a call carries, and where it comes from. -/
def Call.load? : Call → Option (Origin × Frame)
  | .hearing _ | .returned _ => none
  | .routing origin frame | .handling origin frame _ | .handled origin frame | .queueing origin frame
  | .claiming origin frame | .stranded origin frame | .draining origin frame _ | .sending origin frame _ _
  | .failing origin frame _ _ | .discarding origin frame _ | .returning origin frame
  | .releasing origin frame => some (origin, frame)

/-- The ending that the next turn of a call brings, if it brings one. -/
def Bus.ending? (bus : Bus) (alive : HandlerId → Bool) : Call → Option Ending
  | .routing .received frame =>
    if frame.ttl = 0 ∨ frame.ttl = 1 ∧ bus.registry.resolve alive frame.destination = none then some .expired
    else none
  | .handled .. => some .delivered
  | .queueing _ frame => Ending.ofClaim? (bus.queue.enqueue frame).claimed
  | .stranded .. => some .transmitted
  | .discarding _ _ error => some (.failed error)
  | .releasing .. => if bus.queue.bytes = [] then some .transmitted else none
  | _ => none

inductive Bus.Decides (bus : Bus) : Call → Ending → Prop
  | expires (frame : Frame) : Decides bus (.routing .received frame) .expired
  | delivers (origin : Origin) (frame : Frame) : Decides bus (.handled origin frame) .delivered
  | refuses (origin : Origin) (frame : Frame) (error : FrameError)
    (claimed : (bus.queue.enqueue frame).claimed = .error error) : Decides bus (.queueing origin frame) (.refused error)
  | joins (origin : Origin) (frame : Frame) (claimed : (bus.queue.enqueue frame).claimed = .ok false) :
    Decides bus (.queueing origin frame) .transmitted
  | strands (origin : Origin) (frame : Frame) : Decides bus (.stranded origin frame) .transmitted
  | fails (origin : Origin) (frame : Frame) (error : LineError) :
    Decides bus (.discarding origin frame error) (.failed error)
  | finishes (origin : Origin) (frame : Frame) (empty : bus.queue.bytes = []) :
    Decides bus (.releasing origin frame) .transmitted

theorem Bus.decides_of_ending? {bus : Bus} {alive : HandlerId → Bool} {call : Call} {ending : Ending}
    (decided : bus.ending? alive call = some ending) : bus.Decides call ending := by
  cases call with
  | routing origin frame =>
    cases origin with
    | sent => cases decided
    | received =>
      dsimp only [ending?] at decided
      split at decided <;> cases decided
      exact .expires frame
  | handled origin frame =>
    obtain rfl := Option.some.inj decided
    exact .delivers origin frame
  | queueing origin frame =>
    dsimp only [ending?] at decided
    cases claimed : (bus.queue.enqueue frame).claimed with
    | error error =>
      rw [claimed] at decided
      obtain rfl := Option.some.inj decided
      exact .refuses origin frame error claimed
    | ok drainer =>
      rw [claimed] at decided
      cases drainer with
      | true => cases decided
      | false =>
        obtain rfl := Option.some.inj decided
        exact .joins origin frame claimed
  | stranded origin frame =>
    obtain rfl := Option.some.inj decided
    exact .strands origin frame
  | discarding origin frame error =>
    obtain rfl := Option.some.inj decided
    exact .fails origin frame error
  | releasing origin frame =>
    dsimp only [ending?] at decided
    split at decided
    next empty =>
      obtain rfl := Option.some.inj decided
      exact .finishes origin frame empty
    next => cases decided
  | _ => cases decided

/-- What a turn does to the message of its call. -/
inductive Bus.Handles (bus : Bus) (alive : HandlerId → Bool) (call : Call) (turn : Turn) : Prop
  | listens (byte : UInt8) (hearing : call = .hearing byte) (heard : (bus.window.ingest byte).frame = none)
    (returned : turn.call = .returned (.ok ())) (counters : turn.bus.counters = bus.counters)
  | hears (byte : UInt8) (frame : Frame) (hearing : call = .hearing byte)
    (heard : (bus.window.ingest byte).frame = some frame) (routing : turn.call = .routing .received frame)
    (counters : turn.bus.counters = bus.counters)
  | carries (origin : Origin) (frame next : Frame) (before : call.load? = some (origin, frame))
    (after : turn.call.load? = some (origin, next)) (same : origin = .sent → next = frame)
    (undecided : bus.ending? alive call = none) (counters : turn.bus.counters = bus.counters)
  | settles (origin : Origin) (frame : Frame) (ending : Ending) (before : call.load? = some (origin, frame))
    (decided : bus.ending? alive call = some ending) (returned : turn.call = .returned (ending.result origin))
    (counters : turn.bus.counters = ending.count origin bus.counters)

namespace Bus

variable {bus : Bus} {call : Call} {turn : Turn} {alive : HandlerId → Bool}

theorem settle_ok (bus : Bus) (origin : Origin) (frame : Frame) :
    (bus.settle origin frame (.ok ())).call = .returned (Ending.transmitted.result origin) ∧
      (bus.settle origin frame (.ok ())).bus.counters = Ending.transmitted.count origin bus.counters := by
  cases origin <;> exact ⟨rfl, rfl⟩

theorem settle_refused (bus : Bus) (origin : Origin) (frame : Frame) (error : FrameError) :
    (bus.settle origin frame (.error error)).call = .returned ((Ending.refused error).result origin) ∧
      (bus.settle origin frame (.error error)).bus.counters = (Ending.refused error).count origin bus.counters := by
  cases origin <;> exact ⟨rfl, rfl⟩

theorem settle_failed (bus : Bus) (origin : Origin) (frame : Frame) (error : LineError) :
    (bus.settle origin frame (.error (.line error))).call = .returned ((Ending.failed error).result origin) ∧
      (bus.settle origin frame (.error (.line error))).bus.counters =
        (Ending.failed error).count origin bus.counters := by
  cases origin <;> exact ⟨rfl, rfl⟩

theorem handles_route (bus : Bus) (alive : HandlerId → Bool) (origin : Origin) (frame : Frame) :
    bus.Handles alive (.routing origin frame) (bus.route alive origin frame) := by
  unfold route
  cases resolved : bus.registry.resolve alive frame.destination with
  | some handler =>
    cases origin with
    | sent => exact .carries .sent frame frame rfl rfl (fun _ => rfl) rfl rfl
    | received =>
      dsimp only
      split
      next spent => exact .settles .received frame .expired rfl (if_pos (.inl spent)) rfl rfl
      next fresh =>
        refine .carries .received frame frame rfl rfl nofun (if_neg ?_) rfl
        rw [resolved]
        simp [fresh]
  | none =>
    cases origin with
    | sent => exact .carries .sent frame frame rfl rfl (fun _ => rfl) rfl rfl
    | received =>
      dsimp only
      split
      next spent => exact .settles .received frame .expired rfl (if_pos (.inl spent)) rfl rfl
      next fresh =>
        split
        next last => exact .settles .received frame .expired rfl (if_pos (.inr ⟨last, resolved⟩)) rfl rfl
        next onward =>
          refine .carries .received frame _ rfl rfl nofun (if_neg ?_) rfl
          simp [fresh, onward]

theorem handles_queueing {origin : Origin} {frame : Frame}
    (advanced : bus.advance alive (.queueing origin frame) = some turn) :
    bus.Handles alive (.queueing origin frame) turn := by
  have decided : bus.ending? alive (.queueing origin frame) = Ending.ofClaim? (bus.queue.enqueue frame).claimed := rfl
  unfold advance at advanced
  dsimp only at advanced
  generalize bus.queue.enqueue frame = enqueued at advanced decided
  cases claimed : enqueued.claimed with
  | error error =>
    simp only [claimed] at advanced decided
    obtain rfl := Option.some.inj advanced
    obtain ⟨returned, counters⟩ := settle_refused { bus with queue := enqueued.queue } origin frame error
    exact .settles origin frame (.refused error) rfl decided returned counters
  | ok drainer =>
    cases drainer with
    | true =>
      simp only [claimed] at advanced decided
      obtain rfl := Option.some.inj advanced
      exact .carries origin frame frame rfl rfl (fun _ => rfl) decided rfl
    | false =>
      simp only [claimed] at advanced decided
      obtain rfl := Option.some.inj advanced
      obtain ⟨returned, counters⟩ := settle_ok { bus with queue := enqueued.queue } origin frame
      exact .settles origin frame .transmitted rfl decided returned counters

theorem handles_advance (advanced : bus.advance alive call = some turn) : bus.Handles alive call turn := by
  cases call with
  | hearing byte =>
    obtain rfl := Option.some.inj advanced
    cases heard : (bus.window.ingest byte).frame with
    | none => exact .listens byte rfl heard rfl rfl
    | some frame => exact .hears byte frame rfl heard rfl rfl
  | routing origin frame =>
    obtain rfl := Option.some.inj advanced
    exact bus.handles_route alive origin frame
  | handling | sending | returned => cases advanced
  | handled origin frame =>
    obtain rfl := Option.some.inj advanced
    exact .settles origin frame .delivered rfl rfl (by cases origin <;> rfl) rfl
  | queueing origin frame => exact handles_queueing advanced
  | claiming origin frame =>
    unfold advance at advanced
    dsimp only at advanced
    split at advanced <;> cases advanced <;> exact .carries origin frame frame rfl rfl (fun _ => rfl) rfl rfl
  | stranded origin frame =>
    obtain rfl := Option.some.inj advanced
    obtain ⟨returned, counters⟩ := settle_ok { bus with queue := bus.queue.abort.1 } origin frame
    exact .settles origin frame .transmitted rfl rfl returned counters
  | draining origin frame sent =>
    unfold advance at advanced
    dsimp only at advanced
    split at advanced <;> cases advanced <;> exact .carries origin frame frame rfl rfl (fun _ => rfl) rfl rfl
  | failing origin frame sent error | returning origin frame =>
    obtain rfl := Option.some.inj advanced
    exact .carries origin frame frame rfl rfl (fun _ => rfl) rfl rfl
  | discarding origin frame error =>
    obtain rfl := Option.some.inj advanced
    obtain ⟨returned, counters⟩ := settle_failed { bus with queue := bus.queue.abort.1 } origin frame error
    exact .settles origin frame (.failed error) rfl rfl returned counters
  | releasing origin frame =>
    unfold advance TransmitQueue.release at advanced
    dsimp only at advanced
    by_cases waiting : bus.queue.bytes = []
    · rw [if_pos (List.isEmpty_iff.mpr waiting)] at advanced
      obtain rfl := Option.some.inj advanced
      obtain ⟨returned, counters⟩ := settle_ok { bus with queue := { bus.queue with draining := false } } origin frame
      exact .settles origin frame .transmitted rfl (if_pos waiting) returned counters
    · rw [if_neg (mt List.isEmpty_iff.mp waiting)] at advanced
      obtain rfl := Option.some.inj advanced
      exact .carries origin frame frame rfl rfl (fun _ => rfl) (if_neg waiting) rfl

end Bus

/-- A message that was settled: by which call, where it came from, and how it ended. -/
structure Settlement where
  call : Nat
  origin : Origin
  ending : Ending
deriving DecidableEq

namespace Settlement

def delivered (settlement : Settlement) : Bool := settlement.ending == .delivered

def expired (settlement : Settlement) : Bool := settlement.ending == .expired

def transmitted (settlement : Settlement) : Bool := settlement.ending == .transmitted

def forwarded (settlement : Settlement) : Bool := settlement.origin == .received && settlement.transmitted

def refused (settlement : Settlement) : Bool :=
  match settlement.ending with
  | .refused _ => true
  | _ => false

def failed (settlement : Settlement) : Bool :=
  match settlement.ending with
  | .failed _ => true
  | _ => false

/-- The call counted an error. -/
def erred (settlement : Settlement) : Bool := settlement.refused || settlement.failed

end Settlement

/-- The settlement that the next turn of the call at `index` makes, if it makes one. -/
def Bus.settlement? (bus : Bus) (alive : HandlerId → Bool) (index : Nat) (call : Call) : Option Settlement :=
  call.load?.bind fun load => (bus.ending? alive call).map fun ending => ⟨index, load.1, ending⟩

section

variable {bus : Bus} {alive : HandlerId → Bool} {call : Call}

theorem Bus.settlement?_of_unloaded (index : Nat) (unloaded : call.load? = none) :
    bus.settlement? alive index call = none := by
  rw [settlement?, unloaded, Option.bind_none]

theorem Bus.settlement?_of_undecided (index : Nat) (undecided : bus.ending? alive call = none) :
    bus.settlement? alive index call = none := by
  rw [settlement?, undecided]
  cases call.load? <;> rfl

theorem Bus.settlement?_of_decided (index : Nat) {origin : Origin} {frame : Frame} {ending : Ending}
    (load : call.load? = some (origin, frame)) (decided : bus.ending? alive call = some ending) :
    bus.settlement? alive index call = some ⟨index, origin, ending⟩ := by
  rw [settlement?, load, decided]
  rfl

end

/-- The frame that the next turn of a call rebuilds out of the receive window, if it rebuilds one. -/
def Bus.arrival? (bus : Bus) : Call → Option Frame
  | .hearing byte => (bus.window.ingest byte).frame
  | _ => none

theorem Bus.arrival?_of_loaded {bus : Bus} {call : Call} {load : Origin × Frame} (loaded : call.load? = some load) :
    bus.arrival? call = none := by
  cases call with
  | hearing => cases loaded
  | _ => rfl

/-- The call that a move begins, if it begins one. -/
def Move.call? : Move → Option Call
  | .signal message => some (Call.ofMessage message)
  | .ingest byte => some (Call.ingest byte)
  | .receive frame => some (Call.receive frame)
  | _ => none

namespace Traffic

/-- What a watcher notes down along a run, at most one note for each move. -/
def notes {α : Type} (watch : Traffic → Move → Option α) (traffic : Traffic) : List Move → List α
  | [] => []
  | move :: rest => (watch traffic move).toList ++ (traffic.move move).notes watch rest

theorem notes_append {α : Type} (watch : Traffic → Move → Option α) (traffic : Traffic) (front back : List Move) :
    traffic.notes watch (front ++ back) = traffic.notes watch front ++ (traffic.run front).notes watch back := by
  induction front generalizing traffic with
  | nil => rfl
  | cons move rest ih =>
    rw [List.cons_append, notes, notes, ih, List.append_assoc]
    rfl

theorem run_concat (traffic : Traffic) (moves : List Move) (move : Move) :
    traffic.run (moves ++ [move]) = (traffic.run moves).move move := run_append traffic moves [move]

theorem notes_concat {α : Type} (watch : Traffic → Move → Option α) (traffic : Traffic) (moves : List Move)
    (move : Move) :
    traffic.notes watch (moves ++ [move]) =
      traffic.notes watch moves ++ (watch (traffic.run moves) move).toList := by
  rw [notes_append, notes, notes, List.append_nil]

theorem mem_notes {α : Type} {watch : Traffic → Move → Option α} {traffic : Traffic} {moves : List Move} {note : α} :
    note ∈ traffic.notes watch moves ↔
      ∃ (front : List Move) (move : Move) (back : List Move), moves = front ++ move :: back ∧
        watch (traffic.run front) move = some note := by
  constructor
  · intro member
    induction moves generalizing traffic with
    | nil => cases member
    | cons move rest ih =>
      rcases List.mem_append.mp member with now | later
      · exact ⟨[], move, rest, rfl, Option.mem_toList.mp now⟩
      · obtain ⟨front, other, back, rfl, seen⟩ := ih later
        exact ⟨move :: front, other, back, rfl, seen⟩
  · rintro ⟨front, move, back, rfl, seen⟩
    rw [notes_append, notes, seen, List.mem_append, List.mem_append]
    exact .inr (.inl (List.mem_singleton.mpr rfl))

def settlement? (traffic : Traffic) : Move → Option Settlement
  | .turn index alive => traffic.calls[index]?.bind (traffic.bus.settlement? alive index)
  | _ => none

theorem turn_of_settlement? {traffic : Traffic} {move : Move} {settlement : Settlement}
    (settles : traffic.settlement? move = some settlement) : ∃ alive, move = .turn settlement.call alive := by
  cases move with
  | turn index alive =>
    obtain ⟨call, -, settles⟩ := Option.bind_eq_some_iff.mp settles
    obtain ⟨load, -, settles⟩ := Option.bind_eq_some_iff.mp settles
    obtain ⟨ending, -, rfl⟩ := Option.map_eq_some_iff.mp settles
    exact ⟨alive, rfl⟩
  | _ => cases settles

def settlements (traffic : Traffic) (moves : List Move) : List Settlement := traffic.notes settlement? moves

theorem settlements_concat (traffic : Traffic) (moves : List Move) (move : Move) :
    traffic.settlements (moves ++ [move]) =
      traffic.settlements moves ++ ((traffic.run moves).settlement? move).toList :=
  notes_concat settlement? traffic moves move

/-- The frame that a move brings in from the line, if it brings one. -/
def arrival? (traffic : Traffic) : Move → Option Frame
  | .receive frame => some frame
  | .turn index _ => traffic.calls[index]?.bind traffic.bus.arrival?
  | _ => none

/-- The frames that were routed as they came in from the line, in order. -/
def arrivals (traffic : Traffic) (moves : List Move) : List Frame := traffic.notes arrival? moves

theorem arrivals_concat (traffic : Traffic) (moves : List Move) (move : Move) :
    traffic.arrivals (moves ++ [move]) = traffic.arrivals moves ++ ((traffic.run moves).arrival? move).toList :=
  notes_concat arrival? traffic moves move

/-- Everything that a move can do to the calls and to the counters. -/
inductive Step (traffic : Traffic) : Move → Option Settlement → Option Frame → Traffic → Prop
  | silent {move : Move} {after : Traffic} (bystander : move.call? = none) (calls : after.calls = traffic.calls)
    (counters : after.bus.counters = traffic.bus.counters) : Step traffic move none none after
  | begins {move : Move} {call : Call} (entry : move.call? = some call) :
    Step traffic move none (traffic.arrival? move) { traffic with calls := traffic.calls ++ [call] }
  | resumes {move : Move} {index : Nat} {call next : Call} (bystander : move.call? = none)
    (found : traffic.calls[index]? = some call) (answered : call.Resumes next) :
    Step traffic move none none { traffic with calls := traffic.calls.set index next }
  | listens {index : Nat} {alive : HandlerId → Bool} {byte : UInt8} {turn : Turn}
    (found : traffic.calls[index]? = some (.hearing byte)) (returned : turn.call = .returned (.ok ()))
    (counters : turn.bus.counters = traffic.bus.counters) :
    Step traffic (.turn index alive) none none { bus := turn.bus, calls := traffic.calls.set index turn.call }
  | hears {index : Nat} {alive : HandlerId → Bool} {byte : UInt8} {frame : Frame} {turn : Turn}
    (found : traffic.calls[index]? = some (.hearing byte)) (routing : turn.call = .routing .received frame)
    (counters : turn.bus.counters = traffic.bus.counters) :
    Step traffic (.turn index alive) none (some frame) { bus := turn.bus, calls := traffic.calls.set index turn.call }
  | carries {index : Nat} {alive : HandlerId → Bool} {call : Call} {origin : Origin} {frame next : Frame} {turn : Turn}
    (found : traffic.calls[index]? = some call) (load : call.load? = some (origin, frame))
    (onward : turn.call.load? = some (origin, next)) (same : origin = .sent → next = frame)
    (counters : turn.bus.counters = traffic.bus.counters) :
    Step traffic (.turn index alive) none none { bus := turn.bus, calls := traffic.calls.set index turn.call }
  | settles {index : Nat} {alive : HandlerId → Bool} {call : Call} {origin : Origin} {frame : Frame} {ending : Ending}
    {turn : Turn} (found : traffic.calls[index]? = some call) (load : call.load? = some (origin, frame))
    (returned : turn.call = .returned (ending.result origin))
    (counters : turn.bus.counters = ending.count origin traffic.bus.counters) :
    Step traffic (.turn index alive) (some ⟨index, origin, ending⟩) none
      { bus := turn.bus, calls := traffic.calls.set index turn.call }

theorem step_turn (traffic : Traffic) (index : Nat) (alive : HandlerId → Bool) :
    traffic.Step (.turn index alive) (traffic.settlement? (.turn index alive)) (traffic.arrival? (.turn index alive))
      (traffic.turn index alive) := by
  unfold turn settlement? arrival?
  dsimp only
  cases found : traffic.calls[index]? with
  | none => exact .silent rfl rfl rfl
  | some call =>
    simp only [Option.bind_some]
    cases advanced : traffic.bus.advance alive call with
    | none => cases Bus.waits_of_stuck advanced <;> exact .silent rfl rfl rfl
    | some turn =>
      cases Bus.handles_advance advanced with
      | listens byte hearing heard returned counters =>
        subst call
        rw [Bus.settlement?_of_unloaded index rfl, Bus.arrival?, heard]
        exact .listens found returned counters
      | hears byte frame hearing heard routing counters =>
        subst call
        rw [Bus.settlement?_of_unloaded index rfl, Bus.arrival?, heard]
        exact .hears found routing counters
      | carries origin frame next before onward same undecided counters =>
        rw [Bus.settlement?_of_undecided index undecided, Bus.arrival?_of_loaded before]
        exact .carries found before onward same counters
      | settles origin frame ending before decided returned counters =>
        rw [Bus.settlement?_of_decided index before decided, Bus.arrival?_of_loaded before]
        exact .settles found before returned counters

theorem step_resume (traffic : Traffic) {move : Move} (bystander : move.call? = none) (index : Nat)
    {next : Call → Call} (answers : ∀ call, next call = call ∨ call.Resumes (next call)) :
    traffic.Step move none none (traffic.resume index next) := by
  unfold resume
  split
  next => exact .silent bystander rfl rfl
  next call found =>
    rcases answers call with same | answered
    · obtain ⟨inside, here⟩ := List.getElem?_eq_some_iff.mp found
      rw [same, ← here, List.set_getElem_self inside]
      exact .silent bystander rfl rfl
    · exact .resumes bystander found answered

theorem step_move (traffic : Traffic) (move : Move) :
    traffic.Step move (traffic.settlement? move) (traffic.arrival? move) (traffic.move move) := by
  cases move with
  | signal | ingest | receive => exact .begins rfl
  | turn index alive => exact traffic.step_turn index alive
  | reply index => exact traffic.step_resume rfl index Call.resumes_afterHandler
  | answer index answer => exact traffic.step_resume rfl index (Call.resumes_afterLine · answer)
  | register | resetWindow => exact .silent rfl rfl rfl

end Traffic

end Hopline
