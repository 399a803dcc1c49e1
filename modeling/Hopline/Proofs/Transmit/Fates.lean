import Hopline.Proofs.Transmit.Queue

/-! What becomes of the bytes that a transmit queue accepts, whoever uses it and in whatever order. A byte
leaves once, and only from the front: the books below follow every byte from its frame to its end. -/

namespace Hopline

inductive Fate
  | sent
  | lost
  | dropped
deriving DecidableEq

/-- A line with a record of every byte that it was handed. -/
structure Tap (σ : Type) where
  line : σ
  handed : List (UInt8 × Fate)

instance {σ : Type} [Carrier σ] : Carrier (Tap σ) where
  transmit tap byte :=
    match Carrier.transmit tap.line byte with
    | (line, .ok ()) => (⟨line, tap.handed ++ [(byte, .sent)]⟩, .ok ())
    | (line, .error error) => (⟨line, tap.handed ++ [(byte, .lost)]⟩, .error error)

namespace TransmitQueue

/-- One use of a queue. Nobody need hold the drain to drain, to release or to abort. -/
inductive Use (σ : Type)
  | enqueue (frame : Frame)
  | drain (line : σ)
  | release
  | abort

/-- A queue and what its answers and the lines tell of its past. -/
structure Ledger where
  queue : TransmitQueue
  /-- The encodings of the frames that were accepted, in order. -/
  accepted : List Bytes
  /-- The bytes that have left, in order. -/
  gone : List (UInt8 × Fate)
  /-- Some caller was told that it is the drainer, and the drain has not ended since. -/
  held : Bool
  failures : Nat
  /-- How many bytes were dropped, by the answers of those who dropped them. -/
  discarded : Nat

variable {σ : Type}

def Drained.failures (done : Drained σ) : Nat :=
  match done.sent with
  | .ok _ => 0
  | .error _ => 1

namespace Ledger

def start (hooks : FrameHooks) : Ledger :=
  { queue := .empty hooks, accepted := [], gone := [], held := false, failures := 0, discarded := 0 }

def after [Carrier σ] (ledger : Ledger) : Use σ → Ledger
  | .enqueue frame =>
    let done := ledger.queue.enqueue frame
    match done.claimed with
    | .ok drainer =>
      { ledger with
        queue := done.queue
        accepted := ledger.accepted ++ (frame.encode ledger.queue.hooks).toOption.toList
        held := drainer || ledger.held }
    | .error _ => { ledger with queue := done.queue }
  | .drain line =>
    let done := ledger.queue.drain line
    let tapped := ledger.queue.drain (Tap.mk line [])
    { ledger with
      queue := done.queue
      gone := ledger.gone ++ tapped.line.handed
      failures := ledger.failures + done.failures }
  | .release =>
    let done := ledger.queue.release
    { ledger with queue := done.1, held := ledger.held && !done.2 }
  | .abort =>
    let done := ledger.queue.abort
    { ledger with
      queue := done.1
      gone := ledger.gone ++ ledger.queue.bytes.map (·, .dropped)
      held := false
      discarded := ledger.discarded + done.2 }

/-- What holds of the books between any two uses. -/
structure Balanced (hooks : FrameHooks) (ledger : Ledger) : Prop where
  hooks : ledger.queue.hooks = hooks
  idle : ledger.queue.draining = false → ledger.queue.bytes = []
  bounded : ledger.queue.bytes.length ≤ 4 * maxFrame
  drainer : ledger.queue.draining = ledger.held
  /-- The bytes that were accepted are those that have left and, behind them, those that wait. -/
  conserved : ledger.accepted.flatten = ledger.gone.map Prod.fst ++ ledger.queue.bytes
  lost : ledger.gone.countP (·.2 = .lost) = ledger.failures
  dropped : ledger.gone.countP (·.2 = .dropped) = ledger.discarded

/-- What queueing a frame comes to: all of its encoding or nothing. -/
structure Admits (hooks : FrameHooks) (ledger : Ledger) (frame : Frame) : Prop where
  unsigned : ∀ fault, frame.encode hooks = .error fault →
    (ledger.queue.enqueue frame).claimed = .error (.codec fault) ∧ (ledger.queue.enqueue frame).queue = ledger.queue
  crowded : ∀ wire, frame.encode hooks = .ok wire → ledger.queue.free < wire.length →
    (ledger.queue.enqueue frame).claimed = .error (.queueFull wire.length ledger.queue.free) ∧
    (ledger.queue.enqueue frame).queue = ledger.queue
  admitted : ∀ wire, frame.encode hooks = .ok wire → wire.length ≤ ledger.queue.free →
    (ledger.queue.enqueue frame).claimed = .ok !ledger.held ∧
    (ledger.queue.enqueue frame).queue =
      { ledger.queue with bytes := ledger.queue.bytes ++ wire, draining := true }

end Ledger

variable {queue : TransmitQueue} {frame : Frame}

theorem enqueue_of_unsigned {fault : Codec.Fault} (unsigned : frame.encode queue.hooks = .error fault) :
    (queue.enqueue frame).claimed = .error (.codec fault) ∧ (queue.enqueue frame).queue = queue := by
  have claimed : (queue.enqueue frame).claimed = .error (.codec fault) := by
    unfold Frame.encode at unsigned
    unfold enqueue
    dsimp only at unsigned ⊢
    cases outcome : (frame.encodeInto queue.hooks (List.replicate maxFrame 0)).outcome with
    | error first =>
      rw [outcome] at unsigned
      cases unsigned
      rfl
    | ok length =>
      rw [outcome] at unsigned
      cases unsigned
  exact ⟨claimed, queue_of_refused claimed⟩

theorem signs_of_encode {hooks : FrameHooks} {wire : Bytes} (encoded : frame.encode hooks = .ok wire) :
    (hooks.sign.run frame.blank).2 = true ∧ wire = frame.wire hooks := by
  cases signs : (hooks.sign.run frame.blank).2 with
  | true =>
    rw [Frame.encode_of_signs signs] at encoded
    exact ⟨rfl, (Except.ok.inj encoded).symm⟩
  | false =>
    have refused := Frame.encodeInto_of_refuses signs (wireSize_le_buffer frame)
    rw [Frame.encode, refused] at encoded
    cases encoded

/-- What a drain has handed to its line when it ends: one byte too many if it fails. -/
structure Hands (queue : TransmitQueue) (bytes : Bytes) (handed : List (UInt8 × Fate)) (done : Drained σ) : Prop where
  rest : ∃ rest, bytes = handed.map Prod.fst ++ rest ∧ done.queue = { queue with bytes := rest }
  lost : handed.countP (·.2 = .lost) = done.failures
  dropped : handed.countP (·.2 = .dropped) = 0

variable [Carrier σ]

/-- Listening in on the line of a drain does not disturb it, and tells what it was handed. -/
theorem exists_handed (queue : TransmitQueue) (line : σ) (before : List (UInt8 × Fate)) (sent : Nat) (bytes : Bytes) :
    ∃ handed, (queue.drainFrom (Tap.mk line before) sent bytes).line =
        ⟨(queue.drainFrom line sent bytes).line, before ++ handed⟩ ∧
      Hands queue bytes handed (queue.drainFrom line sent bytes) := by
  induction bytes generalizing line before sent with
  | nil => exact ⟨[], by simp [drainFrom], ⟨[], rfl, rfl⟩, rfl, rfl⟩
  | cons byte rest ih =>
    obtain ⟨⟨next, result⟩, transmitted⟩ : ∃ answer, Carrier.transmit line byte = answer := ⟨_, rfl⟩
    cases result with
    | error error =>
      refine ⟨[(byte, .lost)], ?_, ⟨rest, rfl, ?_⟩, ?_, rfl⟩
      · simp only [drainFrom, Carrier.transmit, transmitted]
      · simp only [drainFrom, transmitted]
      · simp only [drainFrom, transmitted]
        rfl
    | ok _ =>
      obtain ⟨handed, tapped, hands⟩ := ih next (before ++ [(byte, .sent)]) (sent + 1)
      obtain ⟨left, split, queued⟩ := hands.rest
      have plain : queue.drainFrom line sent (byte :: rest) = queue.drainFrom next (sent + 1) rest := by
        simp only [drainFrom, transmitted]
      have listening : queue.drainFrom (Tap.mk line before) sent (byte :: rest) =
          queue.drainFrom (Tap.mk next (before ++ [(byte, .sent)])) (sent + 1) rest := by
        simp only [drainFrom, Carrier.transmit, transmitted]
      refine ⟨(byte, .sent) :: handed, ?_, ?_⟩
      · rw [listening, tapped, plain, List.append_assoc, List.singleton_append]
      · rw [plain]
        exact ⟨⟨left, congrArg (byte :: ·) split, queued⟩, hands.lost, hands.dropped⟩

theorem Ledger.Balanced.admits {hooks : FrameHooks} {ledger : Ledger} (balanced : ledger.Balanced hooks) (frame : Frame) :
    ledger.Admits hooks frame := by
  obtain rfl := balanced.hooks
  constructor
  case unsigned => exact fun fault unsigned => enqueue_of_unsigned unsigned
  case crowded =>
    intro wire encoded full
    obtain ⟨signs, rfl⟩ := signs_of_encode encoded
    rw [Frame.length_wire] at full ⊢
    have claimed := claimed_of_full signs full
    exact ⟨claimed, queue_of_refused claimed⟩
  case admitted =>
    intro wire encoded room
    obtain ⟨signs, rfl⟩ := signs_of_encode encoded
    rw [Frame.length_wire] at room
    rw [enqueue_of_room signs room, ← balanced.drainer]
    exact ⟨rfl, rfl⟩

theorem Ledger.balanced_start (hooks : FrameHooks) : (start hooks).Balanced hooks :=
  ⟨rfl, fun _ => rfl, Nat.zero_le _, rfl, rfl, rfl, rfl⟩

theorem Ledger.after_of_refused {ledger : Ledger} {error : FrameError}
    (refused : (ledger.queue.enqueue frame).claimed = .error error) : ledger.after (.enqueue frame : Use σ) = ledger := by
  unfold Ledger.after
  dsimp only
  rw [refused]
  dsimp only
  rw [queue_of_refused refused]

theorem Ledger.after_of_accepted {ledger : Ledger} {drainer : Bool}
    (accepted : (ledger.queue.enqueue frame).claimed = .ok drainer) :
    ledger.after (.enqueue frame : Use σ) =
      { ledger with
        queue := { ledger.queue with
          bytes := ledger.queue.bytes ++ frame.wire ledger.queue.hooks
          draining := true }
        accepted := ledger.accepted ++ [frame.wire ledger.queue.hooks]
        held := drainer || ledger.held } := by
  obtain ⟨grown, encoded⟩ := queue_of_accepted accepted
  unfold Ledger.after
  dsimp only
  rw [accepted]
  dsimp only
  rw [grown, encoded]
  rfl

theorem Ledger.exists_after_drain (ledger : Ledger) (line : σ) :
    ∃ handed rest, ledger.queue.bytes = handed.map Prod.fst ++ rest ∧
      handed.countP (·.2 = .lost) = (ledger.queue.drain line).failures ∧ handed.countP (·.2 = .dropped) = 0 ∧
      ledger.after (.drain line) =
        { ledger with
          queue := { ledger.queue with bytes := rest }
          gone := ledger.gone ++ handed
          failures := ledger.failures + (ledger.queue.drain line).failures } := by
  obtain ⟨handed, tapped, hands⟩ := exists_handed ledger.queue line [] 0 ledger.queue.bytes
  obtain ⟨rest, split, queued⟩ := hands.rest
  refine ⟨handed, rest, split, hands.lost, hands.dropped, ?_⟩
  unfold Ledger.after drain
  dsimp only
  rw [tapped, queued]
  rfl

theorem Ledger.Balanced.after {hooks : FrameHooks} {ledger : Ledger} (balanced : ledger.Balanced hooks) (use : Use σ) :
    (ledger.after use).Balanced hooks := by
  cases use with
  | enqueue frame =>
    cases claimed : (ledger.queue.enqueue frame).claimed with
    | error error =>
      rw [Ledger.after_of_refused claimed]
      exact balanced
    | ok drainer =>
      obtain ⟨-, encoded⟩ := queue_of_accepted claimed
      rw [balanced.hooks] at encoded
      have admits := balanced.admits frame
      -- a frame is only accepted where it fits, and the answer tells whether the drain was held
      have room : (frame.wire hooks).length ≤ ledger.queue.free := by
        by_contra full
        have refused := (admits.crowded _ encoded (Nat.lt_of_not_le full)).1
        rw [claimed] at refused
        cases refused
      have told := (admits.admitted _ encoded room).1
      rw [claimed] at told
      rw [Ledger.after_of_accepted claimed, balanced.hooks, Except.ok.inj told, Bool.not_or_self]
      refine ⟨balanced.hooks, nofun, ?_, rfl, ?_, balanced.lost, balanced.dropped⟩
      · have bounded := balanced.bounded
        simp only [free, queueCapacity] at room
        rw [List.length_append]
        omega
      · rw [List.flatten_append, balanced.conserved, List.append_assoc, List.flatten_singleton]
  | drain line =>
    obtain ⟨handed, rest, split, lost, dropped, same⟩ := ledger.exists_after_drain line
    rw [same]
    refine ⟨balanced.hooks, ?_, ?_, balanced.drainer, ?_, ?_, ?_⟩
    · intro undrained
      exact (List.append_eq_nil_iff.mp (split.symm.trans (balanced.idle undrained))).2
    · have bounded := balanced.bounded
      rw [split, List.length_append] at bounded
      exact (Nat.le_add_left _ _).trans bounded
    · rw [balanced.conserved, split, List.map_append, List.append_assoc]
    · rw [List.countP_append, balanced.lost, lost]
    · rw [List.countP_append, balanced.dropped, dropped, Nat.add_zero]
  | release =>
    unfold Ledger.after release
    dsimp only
    cases empty : ledger.queue.bytes.isEmpty with
    | false =>
      have drainer : ledger.queue.draining = (ledger.held && !false) := by simp [balanced.drainer]
      exact ⟨balanced.hooks, balanced.idle, balanced.bounded, drainer, balanced.conserved, balanced.lost,
        balanced.dropped⟩
    | true =>
      have drainer : false = (ledger.held && !true) := by simp
      exact ⟨balanced.hooks, fun _ => List.isEmpty_iff.mp empty, balanced.bounded, drainer, balanced.conserved,
        balanced.lost, balanced.dropped⟩
  | abort =>
    unfold Ledger.after abort
    refine ⟨balanced.hooks, fun _ => rfl, Nat.zero_le _, rfl, ?_, ?_, ?_⟩
    · simp [balanced.conserved, Function.comp_def]
    · simp [balanced.lost, List.countP_map, Function.comp_def]
    · simp [balanced.dropped, List.countP_map, Function.comp_def]

theorem Ledger.Balanced.run {hooks : FrameHooks} {ledger : Ledger} (balanced : ledger.Balanced hooks)
    (uses : List (Use σ)) : (uses.foldl Ledger.after ledger).Balanced hooks := by
  induction uses generalizing ledger with
  | nil => exact balanced
  | cons use rest ih => exact ih (balanced.after use)

/-- The books balance after any uses whatever, and a frame that is queued then goes in as a whole or not at all. -/
theorem uses_balanced (hooks : FrameHooks) (uses : List (Use σ)) :
    let ledger := uses.foldl Ledger.after (.start hooks)
    ledger.Balanced hooks ∧ ∀ frame, ledger.Admits hooks frame := by
  intro ledger
  have balanced : ledger.Balanced hooks := (Ledger.balanced_start hooks).run uses
  exact ⟨balanced, balanced.admits⟩

end TransmitQueue

end Hopline
