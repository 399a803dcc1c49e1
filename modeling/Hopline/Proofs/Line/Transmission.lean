import Hopline.Line.Handle
import Hopline.Line.Stream

/-! A run of bytes over a stream, whatever the stream answers. A byte that is tried again has left no trace,
so what the stream holds afterwards is what it held and a prefix of the run. -/

namespace Hopline

/-- The failure that an answer means to the line. An interrupted or busy stream is only asked again. -/
def WriteOutcome.error? : WriteOutcome → Option LineError
  | .taken => none
  | .closed => some .disconnected
  | .failed failure =>
    if failure.kind = .interrupted ∨ failure.kind = .wouldBlock then none else some (.io failure)

/-- The answers to the attempts at a run of bytes, and how the run ends. Each attempt is at the first byte not
yet taken. -/
inductive Dialogue : Bytes → List WriteOutcome → Except LineError Unit → Prop
  | done : Dialogue [] [] (.ok ())
  | taken {byte : UInt8} {rest : Bytes} {tries : List WriteOutcome} {answer : Except LineError Unit}
      (onward : Dialogue rest tries answer) : Dialogue (byte :: rest) (.taken :: tries) answer
  | again {byte : UInt8} {rest : Bytes} {outcome : WriteOutcome} {tries : List WriteOutcome}
      {answer : Except LineError Unit} (untaken : outcome ≠ .taken) (harmless : outcome.error? = none)
      (onward : Dialogue (byte :: rest) tries answer) : Dialogue (byte :: rest) (outcome :: tries) answer
  | ended {byte : UInt8} {rest : Bytes} {outcome : WriteOutcome} {error : LineError}
      (ends : outcome.error? = some error) : Dialogue (byte :: rest) [outcome] (.error error)

namespace Dialogue

variable {bytes : Bytes} {tries : List WriteOutcome} {answer : Except LineError Unit}

theorem ne_taken {outcome : WriteOutcome} {error : LineError} (ends : outcome.error? = some error) : outcome ≠ .taken := by
  rintro rfl
  cases ends

theorem whole_or_cut (dialogue : Dialogue bytes tries answer) :
    answer = .ok () ∧ tries.count .taken = bytes.length ∨
      ∃ error earlier last, answer = .error error ∧ tries.count .taken < bytes.length ∧
        tries = earlier ++ [last] ∧ last.error? = some error := by
  induction dialogue with
  | done => exact .inl ⟨rfl, rfl⟩
  | taken _ ih =>
    rw [List.count_cons_self, List.length_cons]
    rcases ih with ⟨rfl, all⟩ | ⟨error, earlier, last, rfl, short, rfl, ends⟩
    · exact .inl ⟨rfl, congrArg (· + 1) all⟩
    · exact .inr ⟨error, .taken :: earlier, last, rfl, Nat.succ_lt_succ short, rfl, ends⟩
  | again untaken _ _ ih =>
    rw [List.count_cons_of_ne untaken]
    rcases ih with ⟨rfl, all⟩ | ⟨error, earlier, last, rfl, short, rfl, ends⟩
    · exact .inl ⟨rfl, all⟩
    · exact .inr ⟨error, _ :: earlier, last, rfl, short, rfl, ends⟩
  | ended ends =>
    rw [List.count_cons_of_ne (ne_taken ends)]
    exact .inr ⟨_, [], _, rfl, Nat.zero_lt_succ _, rfl, ends⟩

/-- There is no attempt after the last byte was taken, and none after a failure. -/
theorem needed (dialogue : Dialogue bytes tries answer) {earlier later : List WriteOutcome}
    (split : tries = earlier ++ later) (more : later ≠ []) :
    earlier.count .taken < bytes.length ∧ ∀ outcome ∈ earlier, outcome.error? = none := by
  induction dialogue generalizing earlier with
  | done => exact absurd (List.append_eq_nil_iff.mp split.symm).2 more
  | taken _ ih =>
    cases earlier with
    | nil => exact ⟨Nat.zero_lt_succ _, List.forall_mem_nil _⟩
    | cons first earlier =>
      obtain ⟨rfl, within⟩ := List.cons.inj split
      obtain ⟨short, harmless⟩ := ih within
      rw [List.count_cons_self]
      exact ⟨Nat.succ_lt_succ short, List.forall_mem_cons.mpr ⟨rfl, harmless⟩⟩
  | again untaken here _ ih =>
    cases earlier with
    | nil => exact ⟨Nat.zero_lt_succ _, List.forall_mem_nil _⟩
    | cons first earlier =>
      obtain ⟨rfl, within⟩ := List.cons.inj split
      obtain ⟨short, harmless⟩ := ih within
      rw [List.count_cons_of_ne untaken]
      exact ⟨short, List.forall_mem_cons.mpr ⟨here, harmless⟩⟩
  | ended =>
    cases earlier with
    | nil => exact ⟨Nat.zero_lt_succ _, List.forall_mem_nil _⟩
    | cons first earlier => exact absurd (List.append_eq_nil_iff.mp (List.cons.inj split).2.symm).2 more

end Dialogue

namespace ByteStream

/-- What the stream answers to the next attempt. -/
def next (stream : ByteStream) : WriteOutcome := stream.writes.headD .taken

/-- What the stream answers to the next `count` attempts. -/
def answers (stream : ByteStream) (count : Nat) : List WriteOutcome :=
  (List.range count).map fun attempt => stream.writes.getD attempt .taken

/-- The stream after an attempt at which it took nothing. -/
def asked (stream : ByteStream) : ByteStream := stream.attempted stream.writes.tail

variable {stream : ByteStream} {byte : UInt8}

theorem answers_succ (stream : ByteStream) (count : Nat) :
    stream.answers (count + 1) = stream.next :: stream.asked.answers count := by
  unfold answers
  rw [List.range_succ_eq_map, List.map_cons, List.map_map]
  have first : stream.writes.getD 0 .taken = stream.next := by cases known : stream.writes <;> simp [next, known]
  rw [first]
  congr 1
  apply List.map_congr_left
  intro attempt _
  simp [asked, attempted, List.getElem?_tail]

theorem retriesWrite_iff {kind : FailureKind} : retriesWrite kind = true ↔ kind = .interrupted ∨ kind = .wouldBlock := by
  cases kind <;> simp [retriesWrite]

theorem transmit_of_taken (taken : stream.next = .taken) : stream.transmit byte = (stream.asked.holding byte, .ok ()) := by
  unfold next at taken
  cases known : stream.writes with
  | nil => simp only [transmit, known, transmitWith, asked, List.tail_nil]
  | cons outcome later =>
    rw [known, List.headD_cons] at taken
    simp only [transmit, known, taken, transmitWith, asked, List.tail_cons]

theorem transmit_of_error {error : LineError} (ends : stream.next.error? = some error) :
    stream.transmit byte = (stream.asked, .error error) := by
  unfold next at ends
  cases known : stream.writes with
  | nil =>
    rw [known] at ends
    cases ends
  | cons outcome later =>
    rw [known, List.headD_cons] at ends
    cases outcome with
    | taken => cases ends
    | closed =>
      cases ends
      simp only [transmit, known, transmitWith, asked, List.tail_cons]
    | failed failure =>
      by_cases retried : failure.kind = .interrupted ∨ failure.kind = .wouldBlock
      · simp [WriteOutcome.error?, retried] at ends
      · simp only [WriteOutcome.error?, retried, ↓reduceIte, Option.some.injEq] at ends
        simp only [transmit, known, transmitWith, retriesWrite_iff, retried, ↓reduceIte, ends, asked, List.tail_cons]

/-- Where an answer settles nothing the stream is asked once more, for the same byte. -/
theorem transmit_of_retry (byte : UInt8) (untaken : stream.next ≠ .taken) (harmless : stream.next.error? = none) :
    stream.writes ≠ [] ∧ stream.transmit byte = stream.asked.transmit byte := by
  unfold next at untaken harmless
  cases known : stream.writes with
  | nil => simp [known] at untaken
  | cons outcome later =>
    refine ⟨List.cons_ne_nil _ _, ?_⟩
    rw [known, List.headD_cons] at untaken harmless
    cases outcome with
    | taken => exact absurd rfl untaken
    | closed => cases harmless
    | failed failure =>
      by_cases retried : failure.kind = .interrupted ∨ failure.kind = .wouldBlock
      · simp only [transmit, known, transmitWith, retriesWrite_iff, retried, ↓reduceIte, asked, List.tail_cons]
        rfl
      · simp [WriteOutcome.error?, retried] at harmless

/-- What a run of bytes makes of a stream. -/
structure Transmits (before : ByteStream) (bytes : Bytes) (calls : Nat) (answer : Except LineError Unit)
    (after : ByteStream) : Prop where
  dialogue : Dialogue bytes (before.answers calls) answer
  made : after.writeCalls = before.writeCalls + calls
  unused : after.writes = before.writes.drop calls
  flushing : after.flushes = before.flushes ∧ after.flushCalls = before.flushCalls
  stored : after.stored = before.stored ++ bytes.take ((before.answers calls).count .taken)

theorem Transmits.taken {rest : Bytes} {calls : Nat} {answer : Except LineError Unit} {after : ByteStream}
    (taken : stream.next = .taken) (onward : (stream.asked.holding byte).Transmits rest calls answer after) :
    stream.Transmits (byte :: rest) (calls + 1) answer after := by
  have answers : stream.answers (calls + 1) = .taken :: (stream.asked.holding byte).answers calls :=
    (stream.answers_succ calls).trans (congrArg (· :: _) taken)
  refine ⟨answers ▸ .taken onward.dialogue, ?_, ?_, onward.flushing, ?_⟩
  · rw [onward.made, Nat.add_comm calls, ← Nat.add_assoc]
    rfl
  · rw [onward.unused, ← List.drop_tail]
    rfl
  · rw [answers, List.count_cons_self, List.take_succ_cons, onward.stored]
    exact List.append_assoc _ _ _

theorem Transmits.again {bytes : Bytes} {calls : Nat} {answer : Except LineError Unit} {after : ByteStream}
    (untaken : stream.next ≠ .taken) (harmless : stream.next.error? = none)
    (onward : stream.asked.Transmits (byte :: bytes) calls answer after) :
    stream.Transmits (byte :: bytes) (calls + 1) answer after := by
  have answers := stream.answers_succ calls
  refine ⟨answers ▸ .again untaken harmless onward.dialogue, ?_, ?_, onward.flushing, ?_⟩
  · rw [onward.made, Nat.add_comm calls, ← Nat.add_assoc]
    rfl
  · rw [onward.unused, ← List.drop_tail]
    rfl
  · rw [answers, List.count_cons_of_ne untaken, onward.stored]
    rfl

theorem Transmits.ended {bytes : Bytes} {error : LineError} (ends : stream.next.error? = some error) :
    stream.Transmits (byte :: bytes) 1 (.error error) stream.asked := by
  have answers : stream.answers 1 = [stream.next] := stream.answers_succ 0
  refine ⟨answers ▸ .ended ends, rfl, List.drop_one.symm, ⟨rfl, rfl⟩, ?_⟩
  rw [answers, List.count_cons_of_ne (Dialogue.ne_taken ends)]
  exact (List.append_nil _).symm

theorem exists_transmits (stream : ByteStream) (bytes : Bytes) :
    ∃ calls, stream.Transmits bytes calls (Carrier.transmitAll stream bytes).2 (Carrier.transmitAll stream bytes).1 := by
  induction bytes generalizing stream with
  | nil => exact ⟨0, .done, rfl, rfl, ⟨rfl, rfl⟩, (List.append_nil _).symm⟩
  | cons byte rest ih =>
    -- the attempts at one byte come to an end with the answers that are set
    induction length : stream.writes.length using Nat.strongRecOn generalizing stream with
    | ind count attempts =>
      by_cases taken : stream.next = .taken
      · have first : Carrier.transmit stream byte = _ := transmit_of_taken taken
        obtain ⟨calls, onward⟩ := ih (stream.asked.holding byte)
        rw [Carrier.transmitAll, first]
        exact ⟨calls + 1, .taken taken onward⟩
      · cases ending : stream.next.error? with
        | some error =>
          have first : Carrier.transmit stream byte = _ := transmit_of_error ending
          rw [Carrier.transmitAll, first]
          exact ⟨1, .ended ending⟩
        | none =>
          obtain ⟨more, again⟩ := transmit_of_retry byte taken ending
          have first : Carrier.transmit stream byte = Carrier.transmit stream.asked byte := again
          have fewer : stream.asked.writes.length < count := by
            have := List.length_pos_iff.mpr more
            simp only [asked, attempted, List.length_tail]
            omega
          obtain ⟨calls, onward⟩ := attempts _ fewer stream.asked rfl
          rw [Carrier.transmitAll] at onward ⊢
          rw [first]
          exact ⟨calls + 1, .again taken ending onward⟩

end ByteStream

namespace Handle

variable {σ : Type} [Carrier σ]

theorem line_transmit (handle : Handle σ) (byte : UInt8) :
    ((handle.transmit byte).1.line, (handle.transmit byte).2) = Carrier.transmit handle.line byte := by
  induction handle with
  | direct line => rfl
  | lent handle ih => exact ih
  | owned handle ih => exact ih

theorem line_transmitAll (handle : Handle σ) (bytes : Bytes) :
    ((Carrier.transmitAll handle bytes).1.line, (Carrier.transmitAll handle bytes).2) =
      Carrier.transmitAll handle.line bytes := by
  induction bytes generalizing handle with
  | nil => rfl
  | cons byte rest ih =>
    have first := handle.line_transmit byte
    have same : Carrier.transmit handle byte = handle.transmit byte := rfl
    rw [Carrier.transmitAll, Carrier.transmitAll, same, ← first]
    obtain ⟨after, answer⟩ := handle.transmit byte
    cases answer with
    | ok => exact ih after
    | error error => rfl

end Handle

/-- A run that stops has stopped at a byte that the line refused, after the line took all the bytes before. -/
theorem Carrier.exists_refused {σ : Type} [Carrier σ] {line : σ} {bytes : Bytes} {error : LineError}
    (stopped : (Carrier.transmitAll line bytes).2 = .error error) :
    ∃ front byte rest middle, bytes = front ++ byte :: rest ∧ Carrier.transmitAll line front = (middle, .ok ()) ∧
      Carrier.transmit middle byte = ((Carrier.transmitAll line bytes).1, .error error) := by
  induction bytes generalizing line with
  | nil => cases stopped
  | cons byte rest ih =>
    rw [transmitAll] at stopped ⊢
    cases first : Carrier.transmit line byte with
    | mk after answer =>
      rw [first] at stopped
      cases answer with
      | error other =>
        cases stopped
        exact ⟨[], byte, rest, line, rfl, rfl, first⟩
      | ok =>
        obtain ⟨front, refused, later, middle, rfl, before, here⟩ := ih stopped
        refine ⟨byte :: front, refused, later, middle, rfl, ?_, here⟩
        rw [transmitAll, first]
        exact before

namespace ByteStream

variable {before after : ByteStream} {bytes : Bytes} {calls : Nat} {answer : Except LineError Unit}

theorem Transmits.stored_of_ok (transmits : before.Transmits bytes calls (.ok ()) after) :
    after.stored = before.stored ++ bytes := by
  rcases transmits.dialogue.whole_or_cut with ⟨-, all⟩ | ⟨_, _, _, stopped, -⟩
  · rw [transmits.stored, all, List.take_length]
  · cases stopped

theorem Transmits.ok_iff (transmits : before.Transmits bytes calls answer after) :
    answer = .ok () ↔ after.stored = before.stored ++ bytes := by
  constructor
  · rintro rfl
    exact transmits.stored_of_ok
  · intro stored
    rcases transmits.dialogue.whole_or_cut with ⟨ok, -⟩ | ⟨_, _, _, -, short, -⟩
    · exact ok
    · have whole := List.append_cancel_left (transmits.stored.symm.trans stored)
      have lengths := congrArg List.length whole
      rw [List.length_take] at lengths
      omega

/-- A byte that is refused leaves nothing in the stream. -/
theorem stored_of_refused {byte : UInt8} {error : LineError} (refused : Carrier.transmit before byte = (after, .error error)) :
    after.stored = before.stored := by
  obtain ⟨calls, transmits⟩ := before.exists_transmits [byte]
  rw [Carrier.transmitAll, refused] at transmits
  rcases transmits.dialogue.whole_or_cut with ⟨ok, -⟩ | ⟨_, _, _, -, short, -⟩
  · cases ok
  · have stored := transmits.stored
    rwa [Nat.lt_one_iff.mp short, List.take_zero, List.append_nil] at stored

/-- The bytes go into the stream once each and in order, up to the first that it refuses. -/
structure Conveys (before : ByteStream) (bytes : Bytes) (calls : Nat) (answer : Except LineError Unit)
    (after : ByteStream) : Prop extends before.Transmits bytes calls answer after where
  whole : answer = .ok () ↔ after.stored = before.stored ++ bytes
  stopped : ∀ error, answer = .error error → ∃ front byte rest middle,
    bytes = front ++ byte :: rest ∧ after.stored = before.stored ++ front ∧
    Carrier.transmitAll before front = (middle, .ok ()) ∧ Carrier.transmit middle byte = (after, .error error)
  failing : ∀ error, answer = .error error → ∃ earlier last,
    before.answers calls = earlier ++ [last] ∧ last.error? = some error
  needed : ∀ earlier later, before.answers calls = earlier ++ later → later ≠ [] →
    earlier.count .taken < bytes.length ∧ ∀ outcome ∈ earlier, outcome.error? = none

/-- Whatever a stream answers, and whatever handle the line over it is reached by. -/
theorem conveys_each_once (handle : Handle ByteStream) (bytes : Bytes) :
    let result := Carrier.transmitAll handle bytes
    Carrier.transmitAll handle.line bytes = (result.1.line, result.2) ∧
      ∃ calls, handle.line.Conveys bytes calls result.2 result.1.line := by
  intro result
  have direct : Carrier.transmitAll handle.line bytes = (result.1.line, result.2) := (handle.line_transmitAll bytes).symm
  obtain ⟨calls, transmits⟩ := handle.line.exists_transmits bytes
  rw [direct] at transmits
  refine ⟨direct, calls, transmits, transmits.ok_iff, ?_, ?_, ?_⟩
  · intro error ended
    have refused : (Carrier.transmitAll handle.line bytes).2 = .error error := by rw [direct]; exact ended
    obtain ⟨front, byte, rest, middle, split, before, here⟩ := Carrier.exists_refused refused
    rw [direct] at here
    obtain ⟨_, earlier⟩ := handle.line.exists_transmits front
    rw [before] at earlier
    exact ⟨front, byte, rest, middle, split, (stored_of_refused here).trans earlier.stored_of_ok, before, here⟩
  · intro error ended
    rcases transmits.dialogue.whole_or_cut with ⟨ok, -⟩ | ⟨_, earlier, last, same, -, split, ends⟩
    · cases ok.symm.trans ended
    · cases same.symm.trans ended
      exact ⟨earlier, last, split, ends⟩
  · exact fun earlier later split more => transmits.dialogue.needed split more

/-- An interruption and a busy stream cost attempts, and the closed one the rest of the run. -/
example :
    let stream := ofOutcomes [.failed (.ofKind .interrupted), .taken, .failed (.ofKind .wouldBlock), .closed] []
    let result := Carrier.transmitAll (Handle.owned (.lent (.direct stream))) [9, 8, 7]
    result.2 = .error .disconnected ∧ result.1.line.stored = [9] ∧ result.1.line.writeCalls = 4 := ⟨rfl, rfl, rfl⟩

end ByteStream

end Hopline
