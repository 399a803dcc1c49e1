import Hopline.Proofs.Bus.Traffic
import Hopline.Proofs.Transmit.Queue

/-! What a run leaves behind for somebody who watches the queue and the line: which frames
were accepted, which bytes the line was handed, took, or failed to take, and when the queue
was discarded. Every move adds at most one mark. -/

namespace Hopline

inductive Mark
  /-- The queue accepted a frame. -/
  | accepted (frame : Frame)
  /-- The line was handed a byte. -/
  | offered (byte : UInt8)
  /-- The line took the byte that it had been handed. -/
  | carried (byte : UInt8)
  /-- The line failed over the byte that it had been handed. -/
  | lost (byte : UInt8)
  /-- The queue was discarded. -/
  | discarded
deriving DecidableEq

namespace Mark

def frame? : Mark → Option Frame
  | .accepted frame => some frame
  | _ => none

def offer? : Mark → Option UInt8
  | .offered byte => some byte
  | _ => none

def carriage? : Mark → Option UInt8
  | .carried byte => some byte
  | _ => none

def loss? : Mark → Option UInt8
  | .lost byte => some byte
  | _ => none

end Mark

/-- Everything that was watched, oldest first. -/
abbrev History := List Mark

namespace History

/-- The frames that were accepted, in order of acceptance. -/
def frames (history : History) : List Frame := history.filterMap Mark.frame?

/-- The bytes that the line was handed, in order. -/
def offers (history : History) : Bytes := history.filterMap Mark.offer?

/-- The bytes that the line took, in order. -/
def carriage (history : History) : Bytes := history.filterMap Mark.carriage?

/-- The bytes over which the line failed, in order. -/
def losses (history : History) : Bytes := history.filterMap Mark.loss?

variable (front back : History)

@[simp] theorem frames_append : frames (front ++ back) = front.frames ++ back.frames := List.filterMap_append

@[simp] theorem offers_append : offers (front ++ back) = front.offers ++ back.offers := List.filterMap_append

@[simp] theorem carriage_append : carriage (front ++ back) = front.carriage ++ back.carriage := List.filterMap_append

@[simp] theorem losses_append : losses (front ++ back) = front.losses ++ back.losses := List.filterMap_append

end History

/-- A call that has no turn to take. -/
inductive Call.Waits : Call → Prop
  | handling (origin : Origin) (frame : Frame) (handler : HandlerId) : Waits (.handling origin frame handler)
  | sending (origin : Origin) (frame : Frame) (sent : Nat) (byte : UInt8) : Waits (.sending origin frame sent byte)
  | returned (result : Except BusError Unit) : Waits (.returned result)

theorem Bus.waits_of_stuck {bus : Bus} {call : Call} {alive : HandlerId → Bool}
    (stuck : bus.advance alive call = none) : call.Waits := by
  unfold advance at stuck
  cases call with
  | handling origin frame handler => exact .handling origin frame handler
  | sending origin frame sent byte => exact .sending origin frame sent byte
  | returned result => exact .returned result
  | hearing | routing | handled | stranded | failing | discarding | returning => cases stuck
  | queueing => dsimp only at stuck; split at stuck <;> cases stuck
  | claiming => dsimp only at stuck; split at stuck <;> cases stuck
  | draining => dsimp only at stuck; split at stuck <;> cases stuck
  | releasing => dsimp only at stuck; split at stuck <;> cases stuck

/-- The mark that a turn of a call leaves. -/
def Bus.mark (bus : Bus) : Call → Option Mark
  | .queueing _ frame =>
    match (bus.queue.enqueue frame).claimed with
    | .ok _ => some (.accepted frame)
    | .error _ => none
  | .draining .. => bus.queue.pop.2.map .offered
  | .stranded .. | .discarding .. => some .discarded
  | _ => none

/-- The mark that an answer of the line leaves. -/
def Call.mark (answer : Except LineError Unit) : Call → Option Mark
  | .sending _ _ _ byte =>
    match answer with
    | .ok () => some (.carried byte)
    | .error _ => some (.lost byte)
  | _ => none

namespace Traffic

def mark (traffic : Traffic) : Move → Option Mark
  | .turn index _ => traffic.calls[index]?.bind traffic.bus.mark
  | .answer index answer => traffic.calls[index]?.bind (Call.mark answer)
  | _ => none

/-- The marks that a run leaves. -/
def history (traffic : Traffic) : List Move → History
  | [] => []
  | move :: rest => (traffic.mark move).toList ++ (traffic.move move).history rest

theorem run_append (traffic : Traffic) (front back : List Move) :
    traffic.run (front ++ back) = (traffic.run front).run back := List.foldl_append

theorem history_append (traffic : Traffic) (front back : List Move) :
    traffic.history (front ++ back) = traffic.history front ++ (traffic.run front).history back := by
  induction front generalizing traffic with
  | nil => rfl
  | cons move rest ih =>
    rw [List.cons_append, history, history, ih, List.append_assoc]
    rfl

theorem history_concat (traffic : Traffic) (moves : List Move) (move : Move) :
    traffic.history (moves ++ [move]) = traffic.history moves ++ ((traffic.run moves).mark move).toList := by
  rw [history_append, history, history, List.append_nil]

/-- Everything that a move can do, together with the mark that it leaves. -/
inductive MarkedEffect (traffic : Traffic) : Option Mark → Traffic → Prop
  | silent {after : Traffic} (queue : after.bus.queue = traffic.bus.queue) (calls : after.calls = traffic.calls) :
    MarkedEffect traffic none after
  | begins (call : Call) (entry : call.Begins) :
    MarkedEffect traffic none { traffic with calls := traffic.calls ++ [call] }
  | turns {index : Nat} {call : Call} {alive : HandlerId → Bool} {turn : Turn}
    (found : traffic.calls[index]? = some call) (advanced : traffic.bus.advance alive call = some turn) :
    MarkedEffect traffic (traffic.bus.mark call) { bus := turn.bus, calls := traffic.calls.set index turn.call }
  | handled {index : Nat} {origin : Origin} {frame : Frame} {handler : HandlerId}
    (found : traffic.calls[index]? = some (.handling origin frame handler)) :
    MarkedEffect traffic none { traffic with calls := traffic.calls.set index (.handled origin frame) }
  | carried {index : Nat} {origin : Origin} {frame : Frame} {sent : Nat} {byte : UInt8}
    (found : traffic.calls[index]? = some (.sending origin frame sent byte)) :
    MarkedEffect traffic (some (.carried byte))
      { traffic with calls := traffic.calls.set index (.draining origin frame (sent + 1)) }
  | lost {index : Nat} {origin : Origin} {frame : Frame} {sent : Nat} {byte : UInt8} (error : LineError)
    (found : traffic.calls[index]? = some (.sending origin frame sent byte)) :
    MarkedEffect traffic (some (.lost byte))
      { traffic with calls := traffic.calls.set index (.failing origin frame sent error) }

theorem mark_of_stuck {bus : Bus} {call : Call} {alive : HandlerId → Bool} (stuck : bus.advance alive call = none) :
    bus.mark call = none := by
  cases Bus.waits_of_stuck stuck <;> rfl

theorem markedEffect_turn (traffic : Traffic) (index : Nat) (alive : HandlerId → Bool) :
    traffic.MarkedEffect (traffic.mark (.turn index alive)) (traffic.turn index alive) := by
  unfold turn mark
  dsimp only
  cases found : traffic.calls[index]? with
  | none => exact .silent rfl rfl
  | some call =>
    cases advanced : traffic.bus.advance alive call with
    | none =>
      simp only [Option.bind_some, advanced, mark_of_stuck advanced]
      exact .silent rfl rfl
    | some turn =>
      simp only [Option.bind_some, advanced]
      exact .turns found advanced

theorem markedEffect_reply (traffic : Traffic) (index : Nat) :
    traffic.MarkedEffect none (traffic.resume index Call.afterHandler) := by
  unfold resume
  cases found : traffic.calls[index]? with
  | none => exact .silent rfl rfl
  | some call =>
    cases call with
    | handling origin frame handler => exact .handled found
    | _ =>
      obtain ⟨inside, here⟩ := List.getElem?_eq_some_iff.mp found
      refine .silent rfl ?_
      dsimp only [Call.afterHandler]
      rw [← here, List.set_getElem_self inside]

theorem markedEffect_answer (traffic : Traffic) (index : Nat) (answer : Except LineError Unit) :
    traffic.MarkedEffect (traffic.mark (.answer index answer)) (traffic.resume index (Call.afterLine answer)) := by
  unfold resume mark
  dsimp only
  cases found : traffic.calls[index]? with
  | none => exact .silent rfl rfl
  | some call =>
    cases call with
    | sending origin frame sent byte =>
      cases answer with
      | ok taken => exact .carried found
      | error error => exact .lost error found
    | _ =>
      obtain ⟨inside, here⟩ := List.getElem?_eq_some_iff.mp found
      refine .silent rfl ?_
      dsimp only [Call.afterLine]
      rw [← here, List.set_getElem_self inside]

theorem markedEffect_move (traffic : Traffic) (move : Move) :
    traffic.MarkedEffect (traffic.mark move) (traffic.move move) := by
  cases move with
  | signal message => exact .begins _ (Call.begins_ofMessage message)
  | ingest byte => exact .begins _ (.hearing byte)
  | receive frame => exact .begins _ (.routing .received frame)
  | turn index alive => exact traffic.markedEffect_turn index alive
  | reply index => exact traffic.markedEffect_reply index
  | answer index answer => exact traffic.markedEffect_answer index answer
  | register => exact .silent rfl rfl
  | resetWindow => exact .silent rfl rfl

end Traffic

end Hopline
