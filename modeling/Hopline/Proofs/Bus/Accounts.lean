import Hopline.Proofs.Bus.History
import Hopline.Proofs.Bus.SingleDrainer
import Hopline.Proofs.Frame.Wires

/-! What one turn does to the books that are kept of the line. The queue owes it what is left of
the frames accepted since the last discard, and the drainer accounts for the byte in hand. -/

namespace Hopline

namespace History

/-- The line has taken every byte that it was handed. -/
def Even (stretch : History) : Prop := stretch.offers = stretch.carriage ∧ stretch.losses = []

/-- The line failed over the last byte that it was handed. -/
def Broken (stretch : History) : Prop :=
  ∃ byte, stretch.offers = stretch.carriage ++ [byte] ∧ stretch.losses = [byte]

/-- Nothing has happened on the line between the two. -/
structure SameLine (stretch later : History) : Prop where
  offers : later.offers = stretch.offers
  carriage : later.carriage = stretch.carriage
  losses : later.losses = stretch.losses

end History

/-- What a call that drains knows of the bytes handed to the line since the last discard. -/
def Call.Accounts (stretch : History) : Call → Prop
  | .sending _ _ _ byte => stretch.offers = stretch.carriage ++ [byte] ∧ stretch.losses = []
  | .failing .. | .discarding .. => stretch.Broken
  | _ => stretch.Even

/-- What a turn does to the queue, and the mark that tells of it. -/
inductive TransmitQueue.MarkedStep (queue : TransmitQueue) : Option Mark → TransmitQueue → Prop
  | waits {after : TransmitQueue} (hooks : after.hooks = queue.hooks) (bytes : after.bytes = queue.bytes) :
    MarkedStep queue none after
  | grows {after : TransmitQueue} (frame : Frame) (hooks : after.hooks = queue.hooks)
    (bytes : after.bytes = queue.bytes ++ frame.wire queue.hooks)
    (encoded : frame.encode queue.hooks = .ok (frame.wire queue.hooks)) :
    MarkedStep queue (some (.accepted frame)) after
  | shrinks {after : TransmitQueue} (byte : UInt8) (hooks : after.hooks = queue.hooks)
    (bytes : queue.bytes = byte :: after.bytes) : MarkedStep queue (some (.offered byte)) after
  | empties {after : TransmitQueue} (hooks : after.hooks = queue.hooks) (bytes : after.bytes = []) :
    MarkedStep queue (some .discarded) after

namespace Bus

variable {bus : Bus} {call : Call} {turn : Turn} {alive : HandlerId → Bool}

theorem queue_queueing {origin : Origin} {frame : Frame}
    (advanced : bus.advance alive (.queueing origin frame) = some turn) :
    turn.bus.queue = (bus.queue.enqueue frame).queue := by
  unfold advance at advanced
  dsimp only at advanced
  generalize bus.queue.enqueue frame = result at advanced ⊢
  split at advanced
  next =>
    obtain rfl := Option.some.inj advanced
    rfl
  next =>
    obtain rfl := Option.some.inj advanced
    exact queue_settle _ origin frame _
  next =>
    obtain rfl := Option.some.inj advanced
    exact queue_settle _ origin frame _

theorem markedStep_queueing {origin : Origin} {frame : Frame}
    (advanced : bus.advance alive (.queueing origin frame) = some turn) :
    bus.queue.MarkedStep (bus.mark (.queueing origin frame)) turn.bus.queue := by
  have refused (error) := @TransmitQueue.queue_of_refused bus.queue frame error
  have accepted (drainer) := @TransmitQueue.queue_of_accepted bus.queue frame drainer
  rw [queue_queueing advanced]
  unfold mark
  dsimp only
  generalize bus.queue.enqueue frame = result at refused accepted ⊢
  cases claimed : result.claimed with
  | error error =>
    rw [refused error claimed]
    exact .waits rfl rfl
  | ok drainer =>
    obtain ⟨grown, encoded⟩ := accepted drainer claimed
    rw [grown]
    exact .grows frame rfl rfl encoded

theorem markedStep_advance (advanced : bus.advance alive call = some turn) :
    bus.queue.MarkedStep (bus.mark call) turn.bus.queue := by
  cases call with
  | hearing byte =>
    cases advanced
    exact .waits rfl rfl
  | routing origin frame =>
    cases advanced
    rw [(bus.aside_route alive origin frame).1]
    exact .waits rfl rfl
  | handling | sending | returned => cases advanced
  | handled | failing | returning =>
    cases advanced
    exact .waits rfl rfl
  | queueing origin frame => exact markedStep_queueing advanced
  | claiming origin frame =>
    unfold advance at advanced
    dsimp only at advanced
    split at advanced <;> cases advanced <;> exact .waits rfl rfl
  | stranded origin frame =>
    obtain rfl := Option.some.inj advanced
    have emptied := queue_settle { bus with queue := bus.queue.abort.1 } origin frame (.ok ())
    exact .empties (congrArg TransmitQueue.hooks emptied :) (congrArg TransmitQueue.bytes emptied :)
  | draining origin frame sent =>
    unfold advance TransmitQueue.pop at advanced
    unfold mark TransmitQueue.pop
    cases waiting : bus.queue.bytes with
    | nil =>
      simp only [waiting] at advanced ⊢
      cases advanced
      exact .waits rfl rfl
    | cons byte rest =>
      simp only [waiting] at advanced ⊢
      cases advanced
      exact .shrinks byte rfl waiting
  | discarding origin frame error =>
    cases advanced
    exact .empties rfl rfl
  | releasing origin frame =>
    unfold advance TransmitQueue.release at advanced
    dsimp only at advanced
    split at advanced
    next released =>
      split at released <;> cases released
      cases advanced
      rw [queue_settle]
      exact .waits rfl rfl
    next kept =>
      split at kept <;> cases kept
      cases advanced
      exact .waits rfl rfl

end Bus

/-- The marks since the last discard, after one mark more. -/
def History.since (stretch : History) : Option Mark → History
  | none => stretch
  | some .discarded => []
  | some mark => stretch ++ [mark]

theorem History.even_nil : Even [] := ⟨rfl, rfl⟩

theorem History.SameLine.even {stretch later : History} (same : SameLine stretch later) (even : stretch.Even) :
    later.Even := by
  unfold Even
  rw [same.offers, same.carriage, same.losses]
  exact even

namespace Call

variable {stretch later : History} {call : Call}

theorem Accounts.transfer (accounts : call.Accounts stretch) (same : stretch.SameLine later) : call.Accounts later := by
  unfold Accounts History.Even History.Broken
  rw [same.offers, same.carriage, same.losses]
  exact accounts

theorem accounts_of_even (even : stretch.Even) (apart : call.drains = false) : call.Accounts stretch := by
  cases call with
  | hearing | routing | handling | handled | queueing | returned => exact even
  | claiming | stranded | draining | sending | failing | discarding | returning | releasing => cases apart

theorem Accounts.even (accounts : call.Accounts stretch) (apart : call.drains = false) : stretch.Even := by
  cases call with
  | hearing | routing | handling | handled | queueing | returned => exact accounts
  | claiming | stranded | draining | sending | failing | discarding | returning | releasing => cases apart

theorem Accounts.exists_hand (accounts : call.Accounts stretch) :
    ∃ hand, stretch.offers = stretch.carriage ++ hand ∧ stretch.losses.length ≤ 1 := by
  have even (even : stretch.Even) : ∃ hand, stretch.offers = stretch.carriage ++ hand ∧ stretch.losses.length ≤ 1 := by
    rw [even.1, even.2]
    exact ⟨[], (List.append_nil _).symm, Nat.zero_le 1⟩
  have broken (broken : stretch.Broken) :
      ∃ hand, stretch.offers = stretch.carriage ++ hand ∧ stretch.losses.length ≤ 1 := by
    obtain ⟨byte, offers, losses⟩ := broken
    rw [losses]
    exact ⟨[byte], offers, Nat.le_refl 1⟩
  cases call with
  | sending origin frame sent byte =>
    rw [accounts.2]
    exact ⟨[byte], accounts.1, Nat.zero_le 1⟩
  | failing | discarding => exact broken accounts
  | _ => exact even accounts

end Call

/-- The drainer takes its account along from turn to turn. -/
theorem Bus.accounts_advance {bus : Bus} {call : Call} {turn : Turn} {alive : HandlerId → Bool} {stretch : History}
    (drains : call.drains = true) (accounts : call.Accounts stretch) (advanced : bus.advance alive call = some turn) :
    turn.call.Accounts (stretch.since (bus.mark call)) := by
  have settled (bus : Bus) (origin : Origin) (frame : Frame) (result : Except FrameError Unit) {stretch : History}
      (even : stretch.Even) : (bus.settle origin frame result).call.Accounts stretch :=
    Call.accounts_of_even even (drains_settle bus origin frame result)
  cases call with
  | hearing | routing | handling | handled | queueing | returned => cases drains
  | sending => cases advanced
  | claiming origin frame =>
    unfold advance at advanced
    dsimp only at advanced
    split at advanced <;> cases advanced <;> exact accounts
  | stranded origin frame =>
    obtain rfl := Option.some.inj advanced
    exact settled _ origin frame (.ok ()) History.even_nil
  | draining origin frame sent =>
    unfold advance TransmitQueue.pop at advanced
    unfold mark TransmitQueue.pop
    cases waiting : bus.queue.bytes with
    | nil =>
      simp only [waiting] at advanced ⊢
      cases advanced
      exact accounts
    | cons byte rest =>
      simp only [waiting] at advanced ⊢
      cases advanced
      show History.offers (stretch ++ [.offered byte]) = History.carriage (stretch ++ [.offered byte]) ++ [byte] ∧
        History.losses (stretch ++ [.offered byte]) = []
      rw [History.offers_append, History.carriage_append, History.losses_append, accounts.1, accounts.2]
      exact ⟨congrArg (· ++ [byte]) (List.append_nil _).symm, rfl⟩
  | failing origin frame sent error =>
    cases advanced
    exact accounts
  | discarding origin frame error =>
    obtain rfl := Option.some.inj advanced
    exact settled { bus with queue := bus.queue.abort.1 } origin frame (.error (.line error)) History.even_nil
  | returning origin frame =>
    cases advanced
    exact accounts
  | releasing origin frame =>
    unfold advance at advanced
    dsimp only at advanced
    split at advanced
    next =>
      obtain rfl := Option.some.inj advanced
      exact settled _ origin frame (.ok ()) accounts
    next =>
      cases advanced
      exact accounts

theorem Bus.mark_of_apart {bus : Bus} {call : Call} (apart : call.drains = false) :
    bus.mark call = none ∨ ∃ frame, bus.mark call = some (.accepted frame) := by
  cases call with
  | queueing origin frame =>
    unfold mark
    dsimp only
    split
    · exact .inr ⟨frame, rfl⟩
    · exact .inl rfl
  | hearing | routing | handling | handled | returned => exact .inl rfl
  | claiming | stranded | draining | sending | failing | discarding | returning | releasing => cases apart

theorem History.sameLine_since {stretch : History} {mark : Option Mark}
    (silent : mark = none ∨ ∃ frame, mark = some (.accepted frame)) : stretch.SameLine (stretch.since mark) := by
  rcases silent with rfl | ⟨frame, rfl⟩
  · exact ⟨rfl, rfl, rfl⟩
  · constructor
    · exact (offers_append _ _).trans (List.append_nil _)
    · exact (carriage_append _ _).trans (List.append_nil _)
    · exact (losses_append _ _).trans (List.append_nil _)

/-- The queue holds what is left of the frames accepted since the last discard. -/
structure TransmitQueue.Owes (queue : TransmitQueue) (hooks : FrameHooks) (stretch : History) : Prop where
  signed : queue.hooks = hooks
  unbroken : Mark.discarded ∉ stretch
  encoded : ∀ frame ∈ stretch.frames, frame.encode hooks = .ok (frame.wire hooks)
  balance : Frame.wires hooks stretch.frames = stretch.offers ++ queue.bytes

namespace TransmitQueue

variable {queue after : TransmitQueue} {hooks : FrameHooks} {stretch : History} {mark : Option Mark}

theorem owes_nil (same : queue.hooks = hooks) (empty : queue.bytes = []) : queue.Owes hooks [] := by
  refine ⟨same, List.not_mem_nil, ?_, ?_⟩
  · intro frame member
    cases member
  · rw [empty]
    rfl

theorem Owes.offers_prefix (owes : queue.Owes hooks stretch) :
    stretch.offers <+: Frame.wires hooks stretch.frames := ⟨queue.bytes, owes.balance.symm⟩

theorem Owes.answered (owes : queue.Owes hooks stretch) {mark : Mark} (bystander : mark.frame? = none)
    (answer : mark.offer? = none) (kept : mark ≠ .discarded) : queue.Owes hooks (stretch ++ [mark]) := by
  have frames : History.frames (stretch ++ [mark]) = stretch.frames := by
    rw [History.frames_append, History.frames, History.frames, List.filterMap_cons_none bystander,
      List.filterMap_nil, List.append_nil]
  have offers : History.offers (stretch ++ [mark]) = stretch.offers := by
    rw [History.offers_append, History.offers, History.offers, List.filterMap_cons_none answer,
      List.filterMap_nil, List.append_nil]
  refine ⟨owes.signed, ?_, frames ▸ owes.encoded, ?_⟩
  · rw [List.mem_append, List.mem_singleton, not_or]
    exact ⟨owes.unbroken, kept.symm⟩
  · rw [frames, offers]
    exact owes.balance

theorem Owes.step (owes : queue.Owes hooks stretch) (step : queue.MarkedStep mark after) :
    after.Owes hooks (stretch.since mark) := by
  obtain ⟨rfl, unbroken, encoded, balance⟩ := owes
  cases step with
  | waits same bytes => exact ⟨same, unbroken, encoded, bytes ▸ balance⟩
  | grows frame same bytes encodes =>
    refine ⟨same, ?_, ?_, ?_⟩
    · simp only [History.since, List.mem_append, List.mem_singleton, reduceCtorEq, or_false]
      exact unbroken
    · intro other member
      rcases List.mem_append.mp ((History.frames_append _ _) ▸ member) with old | new
      · exact encoded other old
      · obtain rfl : other = frame := List.mem_singleton.mp new
        exact encodes
    · calc Frame.wires queue.hooks (History.frames (stretch ++ [.accepted frame]))
          = Frame.wires queue.hooks stretch.frames ++ frame.wire queue.hooks := by
            rw [History.frames_append, Frame.wires_append]
            exact congrArg (_ ++ ·) (List.append_nil _)
        _ = stretch.offers ++ after.bytes := by rw [balance, bytes, List.append_assoc]
        _ = History.offers (stretch ++ [.accepted frame]) ++ after.bytes := by
            rw [History.offers_append]
            exact congrArg (· ++ _) (List.append_nil _).symm
  | shrinks byte same bytes =>
    refine ⟨same, ?_, ?_, ?_⟩
    · simp only [History.since, List.mem_append, List.mem_singleton, reduceCtorEq, or_false]
      exact unbroken
    · intro other member
      rcases List.mem_append.mp ((History.frames_append _ _) ▸ member) with old | new
      · exact encoded other old
      · cases new
    · calc Frame.wires queue.hooks (History.frames (stretch ++ [.offered byte]))
          = stretch.offers ++ queue.bytes := by
            rw [History.frames_append, ← balance]
            exact congrArg (Frame.wires queue.hooks) (List.append_nil _)
        _ = History.offers (stretch ++ [.offered byte]) ++ after.bytes := by
            rw [bytes, History.offers_append, List.append_assoc]
            rfl
  | empties same bytes => exact owes_nil same bytes

end TransmitQueue

/-- Whoever drains accounts for the bytes on the line, and when nobody does the line has taken them all. -/
structure Accounted (calls : List Call) (stretch : History) : Prop where
  drainer : ∀ call ∈ calls, call.drains = true → call.Accounts stretch
  nobody : (∀ call ∈ calls, call.drains = false) → stretch.Even

section

variable {calls : List Call} {stretch later : History} {index : Nat} {call next : Call}

theorem Accounted.append (accounted : Accounted calls stretch) (apart : call.drains = false) :
    Accounted (calls ++ [call]) stretch := by
  constructor
  · intro other member drains
    rcases List.mem_append.mp member with old | new
    · exact accounted.drainer other old drains
    · rw [List.mem_singleton.mp new, apart] at drains
      cases drains
  · intro quiet
    exact accounted.nobody fun other member => quiet other (List.mem_append_left _ member)

/-- A call that does not drain takes its turn beside the drainer, or takes the drain over. -/
theorem Accounted.beside (accounted : Accounted calls stretch) (found : calls[index]? = some call)
    (apart : call.drains = false) (same : stretch.SameLine later) (joins : next.drains = true → stretch.Even)
    (begins : stretch.Even → next.Accounts later) : Accounted (calls.set index next) later := by
  constructor
  · intro other member drains
    rcases List.mem_or_eq_of_mem_set member with old | rfl
    · exact (accounted.drainer other old drains).transfer same
    · exact begins (joins drains)
  · intro quiet
    apply same.even
    apply accounted.nobody
    intro other member
    obtain ⟨place, here⟩ := List.getElem?_of_mem member
    by_cases moved : index = place
    · subst place
      cases found.symm.trans here
      exact apart
    · exact quiet other (List.mem_of_getElem? ((List.getElem?_set_ne moved).trans here))

theorem Accounted.drive (alone : DrainsOnly calls index) (inside : index < calls.length)
    (accounts : next.Accounts later) : Accounted (calls.set index next) later := by
  constructor
  · intro other member drains
    obtain ⟨place, here⟩ := List.getElem?_of_mem member
    obtain rfl := alone.set_self next place other here drains
    rw [List.getElem?_set_self inside] at here
    cases here
    exact accounts
  · intro quiet
    exact accounts.even (quiet next (List.mem_set inside next))

end

end Hopline
