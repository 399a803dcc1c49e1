import Hopline.Proofs.Bus.Balance
import Hopline.Proofs.Bus.FrameOrder

/-! Who is told of a failing line. It is the sender whose call drains at the time, whosever byte
the line failed over. Its own frame was queued first, so that frame is cut short, or it went out
whole and the line failed over one that was queued behind it. -/

namespace Hopline

namespace History

variable {history stretch : History} {hooks : FrameHooks} {frame : Frame}

/-- The marks since the last discard. -/
def present (history : History) : History := history.foldl (fun stretch mark => stretch.since (some mark)) []

theorem present_concat (history : History) (mark : Option Mark) :
    present (history ++ mark.toList) = history.present.since mark := by
  cases mark with
  | none => exact congrArg present (List.append_nil history)
  | some mark => exact List.foldl_append

theorem since_of_kept {mark : Mark} (kept : mark ≠ .discarded) : stretch.since (some mark) = stretch ++ [mark] := by
  cases mark with
  | discarded => exact absurd rfl kept
  | _ => rfl

/-- The queue has accepted the frame since the last discard, and the line has taken every frame
accepted before it. -/
def Custody (hooks : FrameHooks) (stretch : History) (frame : Frame) : Prop :=
  ∃ earlier others, stretch.frames = earlier ++ frame :: others ∧ Frame.wires hooks earlier <+: stretch.carriage

theorem Custody.since {mark : Option Mark} (custody : stretch.Custody hooks frame) (kept : mark ≠ some .discarded) :
    (stretch.since mark).Custody hooks frame := by
  cases mark with
  | none => exact custody
  | some mark =>
    obtain ⟨earlier, others, accepted, before⟩ := custody
    rw [since_of_kept fun discarded => kept (congrArg some discarded)]
    refine ⟨earlier, others ++ frames [mark], ?_, ?_⟩
    · rw [frames_append, accepted, List.append_assoc]
      rfl
    · rw [carriage_append]
      exact before.trans (List.prefix_append _ _)

end History

/-- What a call has returned, if it has. -/
def Call.result? : Call → Option (Except BusError Unit)
  | .returned result => some result
  | _ => none

namespace Bus

variable {bus : Bus} {call : Call} {turn : Turn} {alive : HandlerId → Bool}

theorem queueing_of_claims (apart : call.drains = false) (advanced : bus.advance alive call = some turn)
    (claims : turn.call.drains = true) :
    ∃ origin frame, call = .queueing origin frame ∧ bus.mark call = some (.accepted frame) := by
  cases call with
  | hearing byte =>
    cases advanced
    dsimp only at claims
    split at claims <;> cases claims
  | routing origin frame =>
    cases advanced
    rw [(bus.aside_route alive origin frame).2.2] at claims
    cases claims
  | handled origin frame =>
    cases advanced
    cases claims
  | queueing origin frame =>
    refine ⟨origin, frame, rfl, ?_⟩
    unfold advance at advanced
    unfold mark
    dsimp only at advanced ⊢
    generalize bus.queue.enqueue frame = enqueued at advanced ⊢
    cases claimed : enqueued.claimed with
    | ok drainer => rfl
    | error error =>
      simp only [claimed] at advanced
      obtain rfl := Option.some.inj advanced
      rw [drains_settle] at claims
      cases claims
  | handling | returned => cases advanced
  | claiming | stranded | draining | sending | failing | discarding | returning | releasing => cases apart

theorem breaks_of_mark (discards : bus.mark call = some .discarded) :
    call.isStranded = true ∨ ∃ origin frame error, call = .discarding origin frame error := by
  cases call with
  | stranded => exact .inl rfl
  | discarding origin frame error => exact .inr ⟨origin, frame, error, rfl⟩
  | queueing =>
    unfold mark at discards
    dsimp only at discards
    split at discards <;> cases discards
  | draining =>
    obtain ⟨byte, -, offered⟩ := Option.map_eq_some_iff.mp discards
    cases offered
  | _ => cases discards

theorem mark_ne_discarded (undecided : bus.ending? alive call = none) : bus.mark call ≠ some .discarded := by
  intro discards
  rcases breaks_of_mark discards with stranded | ⟨origin, frame, error, rfl⟩
  · cases call with
    | stranded => cases undecided
    | _ => cases stranded
  · cases undecided

end Bus

/-- The frame of a sender whose call drains is in custody. -/
def Custodial (calls : List Call) (hooks : FrameHooks) (stretch : History) : Prop :=
  ∀ call ∈ calls, call.drains = true → ∀ frame, call.load? = some (.sent, frame) → stretch.Custody hooks frame

section

variable {calls : List Call} {next : Call} {hooks : FrameHooks} {stretch : History} {mark : Option Mark}

theorem Custodial.set (custodial : Custodial calls hooks stretch) (kept : mark ≠ some .discarded) (index : Nat)
    (own : next.drains = true → ∀ frame, next.load? = some (.sent, frame) → (stretch.since mark).Custody hooks frame) :
    Custodial (calls.set index next) hooks (stretch.since mark) := by
  intro call member drains frame load
  rcases List.mem_or_eq_of_mem_set member with old | rfl
  · exact (custodial call old drains frame load).since kept
  · exact own drains frame load

theorem Custodial.set_apart (custodial : Custodial calls hooks stretch) (kept : mark ≠ some .discarded) (index : Nat)
    (apart : next.drains = false) : Custodial (calls.set index next) hooks (stretch.since mark) := by
  refine custodial.set kept index fun drains => ?_
  rw [apart] at drains
  cases drains

end

namespace Traffic

variable {before after : Traffic} {hooks : FrameHooks} {stretch : History} {mark : Option Mark}

/-- As long as nobody drains, the line has taken every frame that the queue has accepted. -/
theorem Books.wires_eq (single : SingleDrainer before) (books : before.Books hooks stretch)
    (nobody : ∀ call ∈ before.calls, call.drains = false) : Frame.wires hooks stretch.frames = stretch.carriage := by
  have balance := books.owes.balance
  cases single with
  | resting rests => rw [balance, rests.empty, List.append_nil, (books.accounted.nobody nobody).1]
  | drained index drainer found holds =>
    have drains := holds.drains
    rw [nobody drainer (List.mem_of_getElem? found)] at drains
    cases drains

theorem Books.custody_of_idle (single : SingleDrainer before) (books : before.Books hooks stretch)
    (idle : before.bus.queue.draining = false) (frame : Frame) :
    History.Custody hooks (stretch ++ [.accepted frame]) frame := by
  refine ⟨stretch.frames, [], History.frames_append _ _, ?_⟩
  rw [books.wires_eq single (single.nobody idle), History.carriage_append]
  exact List.prefix_append _ _

/-- A call that drains after its turn has its frame in custody: from before, or because it has just
queued it into an idle queue. -/
theorem custody_carried {call : Call} {alive : HandlerId → Bool} {turn : Turn} {frame : Frame}
    (single : SingleDrainer before) (books : before.Books hooks stretch)
    (custodial : Custodial before.calls hooks stretch) (member : call ∈ before.calls)
    (advanced : before.bus.advance alive call = some turn) (kept : before.bus.mark call ≠ some .discarded)
    (load : call.load? = some (.sent, frame)) (drains : turn.call.drains = true) :
    (stretch.since (before.bus.mark call)).Custody hooks frame := by
  cases started : call.drains with
  | true => exact (custodial call member started frame load).since kept
  | false =>
    obtain ⟨origin, frame, rfl, accepted⟩ := Bus.queueing_of_claims started advanced drains
    cases load
    rw [accepted]
    cases Bus.passes_advance started advanced with
    | claims idle => exact books.custody_of_idle single idle _
    | beside queue line apart | queues busy draining line apart =>
      rw [apart] at drains
      cases drains

theorem custodial_turn {index : Nat} {call : Call} {alive : HandlerId → Bool} {turn : Turn}
    (single : SingleDrainer before) (books : before.Books hooks stretch)
    (custodial : Custodial before.calls hooks stretch) (found : before.calls[index]? = some call)
    (advanced : before.bus.advance alive call = some turn) :
    Custodial (before.calls.set index turn.call) hooks (stretch.since (before.bus.mark call)) := by
  have inside := (List.getElem?_eq_some_iff.mp found).1
  have member := List.mem_of_getElem? found
  cases Bus.handles_advance advanced with
  | listens byte hearing heard returned counters =>
    subst call
    have undecided : before.bus.ending? alive (.hearing byte) = none := rfl
    have apart : turn.call.drains = false := by
      rw [returned]
      rfl
    exact custodial.set_apart (Bus.mark_ne_discarded undecided) index apart
  | hears byte frame hearing heard routing counters =>
    subst call
    have undecided : before.bus.ending? alive (.hearing byte) = none := rfl
    have apart : turn.call.drains = false := by
      rw [routing]
      rfl
    exact custodial.set_apart (Bus.mark_ne_discarded undecided) index apart
  | carries origin frame next load onward same undecided counters =>
    have kept := Bus.mark_ne_discarded undecided
    refine custodial.set kept index fun drains own carried => ?_
    rw [onward] at carried
    cases carried
    obtain rfl := same rfl
    exact custody_carried single books custodial member advanced kept load drains
  | settles origin frame ending load decided returned counters =>
    have idle : turn.call.drains = false := by
      rw [returned]
      rfl
    by_cases discards : before.bus.mark call = some .discarded
    · -- only the drainer discards, and nobody drains once it has returned
      have drains : call.drains = true := by
        rcases Bus.breaks_of_mark discards with stranded | ⟨origin, frame, error, rfl⟩
        · exact Call.drains_of_isStranded stranded
        · rfl
      have nobody := (single.alone found drains).1.nobody inside idle
      intro other member drains
      rw [nobody other member] at drains
      cases drains
    · exact custodial.set_apart discards index idle

theorem custodial_effect (single : SingleDrainer before) (books : before.Books hooks stretch)
    (custodial : Custodial before.calls hooks stretch) (effect : before.MarkedEffect mark after) :
    Custodial after.calls hooks (stretch.since mark) := by
  cases effect with
  | silent queue calls => exact calls ▸ custodial
  | begins call entry =>
    intro other member drains
    rcases List.mem_append.mp member with old | new
    · exact custodial other old drains
    · rw [List.mem_singleton.mp new, entry.apart] at drains
      cases drains
  | turns found advanced => exact custodial_turn single books custodial found advanced
  | handled found => exact custodial.set_apart (by simp) _ rfl
  | carried found | lost error found =>
    refine custodial.set (by simp) _ fun _ frame load => ?_
    exact (custodial _ (List.mem_of_getElem? found) rfl frame load).since (by simp)

theorem books_present (config : BusConfig) (moves : List Move) :
    Books ((ofConfig config).run moves) config.hooks ((ofConfig config).history moves).present := by
  induction moves using List.reverseRecOn with
  | nil =>
    have accounted : Accounted [] [] := ⟨fun call member => (List.not_mem_nil member).elim, fun _ => History.even_nil⟩
    exact ⟨TransmitQueue.owes_nil rfl rfl, accounted⟩
  | append_singleton moves move ih =>
    rw [history_concat, History.present_concat, run_concat]
    exact books_effect (single_run config moves) ih (((ofConfig config).run moves).markedEffect_move move)

theorem custodial_run (config : BusConfig) (moves : List Move) :
    Custodial ((ofConfig config).run moves).calls config.hooks ((ofConfig config).history moves).present := by
  induction moves using List.reverseRecOn with
  | nil => exact fun call member => (List.not_mem_nil member).elim
  | append_singleton moves move ih =>
    rw [history_concat, History.present_concat, run_concat]
    exact custodial_effect (single_run config moves) (books_present config moves) ih
      (((ofConfig config).run moves).markedEffect_move move)

end Traffic

theorem TransmitQueue.claimed_ne_line (queue : TransmitQueue) (frame : Frame) (error : LineError) :
    (queue.enqueue frame).claimed ≠ .error (.line error) := by
  intro failed
  cases signs : (queue.hooks.sign.run frame.blank).2 with
  | false =>
    rw [claimed_of_unsigned signs] at failed
    cases failed
  | true =>
    by_cases room : frame.wireSize ≤ queue.free
    · rw [enqueue_of_room signs room] at failed
      cases failed
    · rw [claimed_of_full signs (Nat.lt_of_not_le room)] at failed
      cases failed

theorem Call.Serves.settled {move : Move} {error : FrameError} {file : List Settlement}
    (serves : (Call.returned (.error (.frame error))).Serves move file) :
    ∃ settlement ∈ file, settlement.origin = .sent ∧ settlement.ending.result .sent = .error (.frame error) := by
  generalize told : Call.returned (.error (.frame error)) = call at serves
  cases serves with
  | rejected unfit other early =>
    cases told
    exact absurd rfl (early error)
  | sending sendable load | relaying incoming load =>
    subst call
    cases load
  | sent sendable index ending =>
    exact ⟨_, List.mem_singleton.mpr rfl, rfl, (Call.returned.inj told).symm⟩
  | hearing | unheard => cases told
  | relayed incoming index ending => cases ending <;> cases told

theorem Bus.call_of_told {bus : Bus} {alive : HandlerId → Bool} {call : Call} {settlement : Settlement} {index : Nat}
    {error : LineError} (settles : bus.settlement? alive index call = some settlement)
    (told : settlement.ending.result .sent = .error (.frame (.line error))) :
    ∃ frame, call = .discarding settlement.origin frame error := by
  obtain ⟨load, loaded, settles⟩ := Option.bind_eq_some_iff.mp settles
  obtain ⟨ending, decided, rfl⟩ := Option.map_eq_some_iff.mp settles
  dsimp only at told
  cases decides_of_ending? decided with
  | expires | delivers | joins | strands | finishes => cases told
  | refuses origin frame lower claimed =>
    cases told
    exact absurd claimed (bus.queue.claimed_ne_line frame error)
  | fails origin frame lower =>
    cases told
    cases loaded
    exact ⟨frame, rfl⟩

/-- Where the line failed, seen from the frame of the call that drained. -/
theorem History.Custody.cut {hooks : FrameHooks} {stretch : History} {frame : Frame} {byte : UInt8}
    (custody : stretch.Custody hooks frame) (failed : stretch.offers = stretch.carriage ++ [byte])
    (order : stretch.offers <+: Frame.wires hooks stretch.frames) :
    ∃ (earlier others : List Frame) (taken : Bytes), stretch.frames = earlier ++ frame :: others ∧
      stretch.carriage = Frame.wires hooks earlier ++ taken ∧
      taken ++ [byte] <+: frame.wire hooks ++ Frame.wires hooks others ∧
      (frame.wire hooks <+: taken ↔ ¬taken ++ [byte] <+: frame.wire hooks) := by
  obtain ⟨earlier, others, frames, taken, carriage⟩ := custody
  have front : taken ++ [byte] <+: frame.wire hooks ++ Frame.wires hooks others := by
    rw [failed, ← carriage, frames, Frame.wires_append, List.append_assoc] at order
    exact (List.prefix_append_right_inj _).mp order
  refine ⟨earlier, others, taken, frames, carriage.symm, front, ?_⟩
  constructor
  · intro whole inside
    have length := inside.length_le
    rw [List.length_append, List.length_singleton] at length
    exact Nat.not_succ_le_self _ (length.trans whole.length_le)
  · -- two fronts of the same bytes: the shorter one is a front of the longer one
    intro outside
    apply List.prefix_of_prefix_length_le (List.prefix_append _ _) ((List.prefix_append _ _).trans front)
    by_contra short
    apply outside
    apply List.prefix_of_prefix_length_le front (List.prefix_append _ _)
    rw [List.length_append, List.length_singleton]
    exact Nat.lt_of_not_le short

namespace Traffic

theorem begun_of_load (config : BusConfig) {moves : List Move} {index : Nat} {call : Call} {frame : Frame}
    (found : ((ofConfig config).run moves).calls[index]? = some call) (load : call.load? = some (.sent, frame)) :
    (begun moves)[index]? = some (.signal frame.toMessage) := by
  obtain ⟨move, started, serves⟩ := (attended_run config moves).exists_serves found
  generalize file _ index = filed at serves
  cases serves with
  | rejected | sent | hearing | unheard | relayed => cases load
  | sending sendable carried =>
    cases carried.symm.trans load
    exact started
  | relaying incoming carried => cases carried.symm.trans load

/-- Whatever calls were made, and however their turns and the failures of the line fell: a sender is
told of a failing line exactly if its own call discarded the queue over it. Everything queued before
its frame was on the line by then. Its own frame was on the line whole exactly if the byte that the
line failed over was none of that frame's, but belonged to a frame queued behind it. -/
theorem told_of_failure (config : BusConfig) (moves : List Move) (index : Nat) (error : LineError) :
    (((ofConfig config).run moves).calls[index]? = some (.returned (.error (.frame (.line error)))) ↔
      ∃ (front : List Move) (alive : HandlerId → Bool) (back : List Move) (frame : Frame),
        moves = front ++ .turn index alive :: back ∧ (begun moves)[index]? = some (.signal frame.toMessage) ∧
        ((ofConfig config).run front).calls[index]? = some (.discarding .sent frame error)) ∧
    ∀ (front : List Move) (frame : Frame), front <+: moves →
      ((ofConfig config).run front).calls[index]? = some (.discarding .sent frame error) →
      let stretch := ((ofConfig config).history front).present
      ∃ (earlier others : List Frame) (taken : Bytes) (byte : UInt8),
        stretch.frames = earlier ++ frame :: others ∧ stretch.losses = [byte] ∧
        stretch.carriage = Frame.wires config.hooks earlier ++ taken ∧
        taken ++ [byte] <+: frame.wire config.hooks ++ Frame.wires config.hooks others ∧
        (frame.wire config.hooks <+: taken ↔ ¬taken ++ [byte] <+: frame.wire config.hooks) := by
  refine ⟨⟨?_, ?_⟩, ?_⟩
  · intro told
    obtain ⟨_, _, serves⟩ := (attended_run config moves).exists_serves told
    obtain ⟨settlement, member, sent, ending⟩ := serves.settled
    obtain ⟨made, own⟩ := List.mem_filter.mp member
    obtain ⟨front, move, back, rfl, settles⟩ := mem_notes.mp made
    obtain ⟨alive, rfl⟩ := turn_of_settlement? settles
    obtain rfl : settlement.call = index := beq_iff_eq.mp own
    obtain ⟨call, found, settles⟩ := Option.bind_eq_some_iff.mp settles
    obtain ⟨frame, rfl⟩ := Bus.call_of_told settles ending
    rw [sent] at found
    refine ⟨front, alive, back, frame, rfl, ?_, found⟩
    have inside := begun_of_load config found rfl
    rw [begun, List.filter_append]
    exact (List.getElem?_append_left (List.getElem?_eq_some_iff.mp inside).1).trans inside
  · rintro ⟨front, alive, back, frame, rfl, signals, discarding⟩
    have returned : (((ofConfig config).run front).turn index alive).calls[index]? =
        some (.returned (.error (.frame (.line error)))) := by
      unfold turn
      rw [discarding]
      exact List.getElem?_set_self (List.getElem?_eq_some_iff.mp discarding).1
    rw [run_append]
    exact returned_run returned back
  · intro front frame _ discarding stretch
    have member := List.mem_of_getElem? discarding
    have books := books_present config front
    obtain ⟨byte, failed, losses⟩ := books.accounted.drainer _ member rfl
    have custody := custodial_run config front _ member rfl frame rfl
    obtain ⟨earlier, others, taken, frames, carriage, cut, whole⟩ := custody.cut failed books.owes.offers_prefix
    exact ⟨earlier, others, taken, byte, frames, losses, carriage, cut, whole⟩

/-- The call at `index` hands bytes over, and the line takes them. -/
def carries (index count : Nat) : List Move :=
  (List.replicate count [.turn index fun _ => false, .answer index (.ok ())]).flatten

/-- While the first byte of a frame goes out another frame is queued. The line takes the first frame
whole and fails over the other one. The sender of the first is told that the line failed, tries again,
and its message is on the line twice. -/
theorem whole_frame_reported_lost :
    let frame : Frame :=
      { destination := 2, source := 1, flags := ⟨false, false⟩, ttl := 1, payload := [], payload_le := by decide }
    let other : Frame :=
      { destination := 3, source := 1, flags := ⟨false, false⟩, ttl := 1, payload := [], payload_le := by decide }
    let turns (index count : Nat) : List Move := List.replicate count (.turn index fun _ => false)
    let queued : List Move := .signal frame.toMessage :: turns 0 4 ++ .signal other.toMessage :: turns 1 2
    let failed : List Move :=
      queued ++ .answer 0 (.ok ()) :: carries 0 7 ++ turns 0 1 ++ .answer 0 (.error .disconnected) :: turns 0 2
    let repeated : List Move := failed ++ .signal frame.toMessage :: turns 2 3 ++ carries 2 8 ++ turns 2 3
    let start := ofConfig .standard
    (start.run failed).calls.map Call.result? = [some (.error (.frame (.line .disconnected))), some (.ok ())] ∧
      (start.history failed).carriage = frame.wire .checksum ∧
      (start.run repeated).calls.map Call.result? =
        [some (.error (.frame (.line .disconnected))), some (.ok ()), some (.ok ())] ∧
      (start.history repeated).carriage = frame.wire .checksum ++ frame.wire .checksum := by
  decide +kernel

end Traffic

end Hopline
