import Hopline.Bus.Call

/-! Any number of calls on one bus. A run is a list of moves, each of which lets one
call begin, take its turn, or hear from its handler or from the line, so every order of
critical sections is some run. A call that another one makes from inside a handler or
from inside the line is one that begins while the other waits. -/

namespace Hopline

/-- One thing that happens to a bus or to a call on it. -/
inductive Move
  | signal (message : Message)
  | ingest (byte : UInt8)
  | receive (frame : Frame)
  /-- Give a call its turn while the handlers of `alive` can be found. -/
  | turn (index : Nat) (alive : HandlerId → Bool)
  /-- Let the handler of a call return. -/
  | reply (index : Nat)
  /-- Let the line answer for the byte that a call offers. -/
  | answer (index : Nat) (answer : Except LineError Unit)
  | register (alive : HandlerId → Bool) (address : Address) (handler : HandlerId)
  | resetWindow

/-- The call that a sender makes. A message that may not be sent is turned down at once. -/
def Call.ofMessage (message : Message) : Call :=
  match Call.signal message with
  | .ok call => call
  | .error error => .returned (.error error)

/-- A bus and every call that was ever made on it. -/
structure Traffic where
  bus : Bus
  calls : List Call

namespace Traffic

def ofConfig (config : BusConfig) : Traffic := { bus := .ofConfig config, calls := [] }

def enter (traffic : Traffic) (call : Call) : Traffic :=
  { traffic with calls := traffic.calls ++ [call] }

def turn (traffic : Traffic) (index : Nat) (alive : HandlerId → Bool) : Traffic :=
  match traffic.calls[index]?.bind (traffic.bus.advance alive) with
  | none => traffic
  | some turn => { bus := turn.bus, calls := traffic.calls.set index turn.call }

def resume (traffic : Traffic) (index : Nat) (next : Call → Call) : Traffic :=
  match traffic.calls[index]? with
  | none => traffic
  | some call => { traffic with calls := traffic.calls.set index (next call) }

/-- Makes a move. A move that does not concern a call where it stands changes nothing. -/
def move (traffic : Traffic) : Move → Traffic
  | .signal message => traffic.enter (Call.ofMessage message)
  | .ingest byte => traffic.enter (Call.ingest byte)
  | .receive frame => traffic.enter (Call.receive frame)
  | .turn index alive => traffic.turn index alive
  | .reply index => traffic.resume index Call.afterHandler
  | .answer index answer => traffic.resume index (Call.afterLine answer)
  | .register alive address handler =>
    { traffic with bus := (traffic.bus.register alive address handler).1 }
  | .resetWindow => { traffic with bus := traffic.bus.resetWindow.1 }

def run (traffic : Traffic) (moves : List Move) : Traffic := moves.foldl move traffic

end Traffic

/-- Where a call stands when it begins. -/
inductive Call.Begins : Call → Prop
  | hearing (byte) : Begins (.hearing byte)
  | routing (origin frame) : Begins (.routing origin frame)
  | rejected (error) : Begins (.returned (.error error))

/-- What becomes of a call that waits, once it is answered. -/
inductive Call.Resumes : Call → Call → Prop
  | handled (origin frame handler) : Resumes (.handling origin frame handler) (.handled origin frame)
  | taken (origin frame sent byte) : Resumes (.sending origin frame sent byte) (.draining origin frame (sent + 1))
  | refused (origin frame sent byte error) :
    Resumes (.sending origin frame sent byte) (.failing origin frame sent error)

/-- Everything that a move can do. -/
inductive Traffic.Effect (traffic : Traffic) : Traffic → Prop
  | nothing : Effect traffic traffic
  | begins (call : Call) (entry : call.Begins) :
    Effect traffic { traffic with calls := traffic.calls ++ [call] }
  | turns {index : Nat} {call : Call} {alive : HandlerId → Bool} {turn : Turn}
    (found : traffic.calls[index]? = some call) (advanced : traffic.bus.advance alive call = some turn) :
    Effect traffic { bus := turn.bus, calls := traffic.calls.set index turn.call }
  | resumes {index : Nat} {call next : Call} (found : traffic.calls[index]? = some call)
    (answered : call.Resumes next) : Effect traffic { traffic with calls := traffic.calls.set index next }
  | edits (registry : Registry) (window : Window) :
    Effect traffic { traffic with bus := { traffic.bus with registry, window } }

theorem Call.begins_ofMessage (message : Message) : (Call.ofMessage message).Begins := by
  unfold Call.ofMessage Call.signal
  split
  next call signalled =>
    split at signalled
    · cases signalled
    · split at signalled
      · cases signalled
      · split at signalled
        · cases signalled
          exact .routing _ _
        · cases signalled
  next error _ => exact .rejected error

theorem Call.resumes_afterHandler (call : Call) : call.afterHandler = call ∨ call.Resumes call.afterHandler := by
  cases call with
  | handling origin frame handler => exact .inr (.handled origin frame handler)
  | _ => exact .inl rfl

theorem Call.resumes_afterLine (call : Call) (answer : Except LineError Unit) :
    call.afterLine answer = call ∨ call.Resumes (call.afterLine answer) := by
  cases call with
  | sending origin frame sent byte =>
    cases answer with
    | ok taken => exact .inr (.taken origin frame sent byte)
    | error error => exact .inr (.refused origin frame sent byte error)
  | _ => exact .inl rfl

namespace Traffic

theorem effect_turn (traffic : Traffic) (index : Nat) (alive : HandlerId → Bool) :
    traffic.Effect (traffic.turn index alive) := by
  unfold turn
  split
  next => exact .nothing
  next turn advanced =>
    obtain ⟨call, found, advanced⟩ := Option.bind_eq_some_iff.mp advanced
    exact .turns found advanced

theorem effect_resume (traffic : Traffic) (index : Nat) {next : Call → Call}
    (answers : ∀ call, next call = call ∨ call.Resumes (next call)) :
    traffic.Effect (traffic.resume index next) := by
  unfold resume
  split
  next => exact .nothing
  next call found =>
    rcases answers call with same | answered
    · obtain ⟨inside, here⟩ := List.getElem?_eq_some_iff.mp found
      rw [same, ← here, List.set_getElem_self inside]
      exact .nothing
    · exact .resumes found answered

theorem effect_move (traffic : Traffic) (move : Move) : traffic.Effect (traffic.move move) := by
  cases move with
  | signal message => exact .begins _ (Call.begins_ofMessage message)
  | ingest byte => exact .begins _ (.hearing byte)
  | receive frame => exact .begins _ (.routing .received frame)
  | turn index alive => exact traffic.effect_turn index alive
  | reply index => exact traffic.effect_resume index Call.resumes_afterHandler
  | answer index answer => exact traffic.effect_resume index (Call.resumes_afterLine · answer)
  | register alive address handler => exact .edits _ traffic.bus.window
  | resetWindow => exact .edits traffic.bus.registry _

theorem run_induction {holds : Traffic → Prop} {traffic : Traffic} (start : holds traffic)
    (kept : ∀ before after, Effect before after → holds before → holds after) (moves : List Move) :
    holds (traffic.run moves) := by
  induction moves generalizing traffic with
  | nil => exact start
  | cons move rest ih => exact ih (kept _ _ (traffic.effect_move move) start)

end Traffic

end Hopline
