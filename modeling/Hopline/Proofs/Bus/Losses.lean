import Hopline.Proofs.Bus.Failures

/-! What a failing line costs. Each failure discards the queue, loses every accepted frame that the
line has not taken whole, and is counted as one error. -/

namespace Hopline

namespace Frame

variable {hooks : FrameHooks} {frames : List Frame} {taken : Bytes}

/-- The frames behind those that `taken` spells out. -/
def unfinished (hooks : FrameHooks) : List Frame → Bytes → List Frame
  | [], _ => []
  | frame :: rest, taken =>
    if frame.wire hooks <+: taken then unfinished hooks rest (taken.drop frame.wireSize) else frame :: rest

theorem exists_finished (hooks : FrameHooks) (frames : List Frame) (taken : Bytes) :
    ∃ whole, frames = whole ++ unfinished hooks frames taken ∧ wires hooks whole <+: taken ∧
      ∀ cut later, unfinished hooks frames taken = cut :: later → ¬wires hooks (whole ++ [cut]) <+: taken := by
  induction frames generalizing taken with
  | nil => exact ⟨[], rfl, List.nil_prefix, nofun⟩
  | cons frame rest ih =>
    rw [unfinished]
    by_cases front : frame.wire hooks <+: taken
    · obtain ⟨behind, rfl⟩ := front
      obtain ⟨whole, split, inside, cut⟩ := ih behind
      have dropped : (frame.wire hooks ++ behind).drop frame.wireSize = behind := by
        rw [← frame.length_wire hooks, List.drop_left]
      rw [if_pos (List.prefix_append _ _), dropped]
      refine ⟨frame :: whole, ?_, ?_, ?_⟩
      · rw [List.cons_append, ← split]
      · rw [wires_cons]
        exact (List.prefix_append_right_inj _).mpr inside
      · intro next later here outside
        rw [List.cons_append, wires_cons] at outside
        exact cut next later here ((List.prefix_append_right_inj _).mp outside)
    · rw [if_neg front]
      refine ⟨[], rfl, List.nil_prefix, ?_⟩
      intro cut later here outside
      cases here
      rw [List.nil_append, wires_cons] at outside
      exact front ((List.prefix_append _ _).trans outside)

theorem unfinished_eq_nil : unfinished hooks frames taken = [] ↔ wires hooks frames <+: taken := by
  obtain ⟨whole, split, inside, cut⟩ := exists_finished hooks frames taken
  constructor
  · intro nothing
    rw [nothing, List.append_nil] at split
    rw [split]
    exact inside
  · intro all
    cases rest : unfinished hooks frames taken with
    | nil => rfl
    | cons next later =>
      rw [rest] at split
      refine absurd ?_ (cut next later rest)
      rw [split, List.append_cons, wires_append] at all
      exact (List.prefix_append _ _).trans all

end Frame

namespace History

/-- The frames that a mark loses: a discard loses those that the line has not taken whole. -/
def lostBy (hooks : FrameHooks) (stretch : History) : Mark → List (List Frame)
  | .discarded => [Frame.unfinished hooks stretch.frames stretch.carriage]
  | _ => []

def lostFrom (hooks : FrameHooks) (stretch : History) : History → List (List Frame)
  | [] => []
  | mark :: rest => stretch.lostBy hooks mark ++ lostFrom hooks (stretch.since (some mark)) rest

/-- What each discard lost, in order. -/
def lost (hooks : FrameHooks) (history : History) : List (List Frame) := lostFrom hooks [] history

theorem lostFrom_concat (hooks : FrameHooks) (stretch history : History) (mark : Mark) :
    lostFrom hooks stretch (history ++ [mark]) =
      lostFrom hooks stretch history ++
        lostBy hooks (history.foldl (fun stretch mark => stretch.since (some mark)) stretch) mark := by
  induction history generalizing stretch with
  | nil => exact List.append_nil _
  | cons first rest ih => rw [List.cons_append, lostFrom, ih, lostFrom, List.append_assoc, List.foldl_cons]

theorem lost_concat (hooks : FrameHooks) (history : History) (mark : Option Mark) :
    lost hooks (history ++ mark.toList) = lost hooks history ++ mark.toList.flatMap (history.present.lostBy hooks) := by
  cases mark with
  | none => exact (congrArg (lost hooks) (List.append_nil history)).trans (List.append_nil _).symm
  | some mark =>
    rw [Option.toList_some, List.flatMap_singleton]
    exact lostFrom_concat hooks [] history mark

end History

theorem History.lostBy_of_kept {hooks : FrameHooks} (stretch : History) {mark : Option Mark}
    (kept : mark ≠ some .discarded) : mark.toList.flatMap (stretch.lostBy hooks) = [] := by
  cases mark with
  | none => rfl
  | some mark =>
    cases mark with
    | discarded => exact absurd rfl kept
    | _ => rfl

theorem Settlement.countP_erred (settled : List Settlement) :
    settled.countP erred = settled.countP refused + settled.countP failed := by
  induction settled with
  | nil => rfl
  | cons first rest ih =>
    obtain ⟨index, origin, ending⟩ := first
    simp only [List.countP_cons, ih]
    cases ending <;> simp [erred, refused, failed] <;> omega

section

variable {α : Type} {lists : List (List α)}

theorem length_le_flatten (nonempty : ∀ list ∈ lists, list ≠ []) : lists.length ≤ lists.flatten.length := by
  rw [List.length_flatten, ← List.length_map List.length]
  apply List.length_le_sum_of_one_le
  intro length member
  obtain ⟨list, inside, rfl⟩ := List.mem_map.mp member
  exact List.length_pos_iff.mpr (nonempty list inside)

theorem length_eq_flatten (nonempty : ∀ list ∈ lists, list ≠ []) :
    lists.length = lists.flatten.length ↔ ∀ list ∈ lists, list.length = 1 := by
  induction lists with
  | nil => exact ⟨fun _ _ member => (List.not_mem_nil member).elim, fun _ => rfl⟩
  | cons first rest ih =>
    obtain ⟨one, others⟩ := List.forall_mem_cons.mp nonempty
    have positive := List.length_pos_iff.mpr one
    have enough := length_le_flatten others
    rw [List.forall_mem_cons, ← ih others, List.length_cons, List.flatten_cons, List.length_append]
    omega

end

namespace Traffic

/-- No call misses the line, so the queue is discarded whenever a message fails, and only then. -/
theorem discards_iff_failed {traffic : Traffic} (single : SingleDrainer traffic) (move : Move) :
    traffic.mark move = some .discarded ↔
      ∃ settlement, traffic.settlement? move = some settlement ∧ settlement.failed = true := by
  constructor
  · intro discards
    cases move with
    | turn index alive =>
      obtain ⟨call, here, discards⟩ := Option.bind_eq_some_iff.mp discards
      rcases Bus.breaks_of_mark discards with stranded | ⟨origin, frame, error, rfl⟩
      · rw [(single.alone here (Call.drains_of_isStranded stranded)).2] at stranded
        cases stranded
      · exact ⟨⟨index, origin, .failed error⟩, Option.bind_eq_some_iff.mpr ⟨_, here, rfl⟩, rfl⟩
    | answer index answer =>
      obtain ⟨call, here, discards⟩ := Option.bind_eq_some_iff.mp discards
      cases call with
      | sending => cases answer <;> cases discards
      | _ => cases discards
    | _ => cases discards
  · rintro ⟨settlement, settles, failed⟩
    obtain ⟨alive, rfl⟩ := turn_of_settlement? settles
    obtain ⟨call, here, settles⟩ := Option.bind_eq_some_iff.mp settles
    obtain ⟨load, -, settles⟩ := Option.bind_eq_some_iff.mp settles
    obtain ⟨ending, decided, made⟩ := Option.map_eq_some_iff.mp settles
    rw [← made] at failed
    cases Bus.decides_of_ending? decided with
    | fails origin frame error => exact Option.bind_eq_some_iff.mpr ⟨_, here, rfl⟩
    | _ => cases failed

theorem failed_run (config : BusConfig) (moves : List Move) :
    ((ofConfig config).settlements moves).countP Settlement.failed =
      (((ofConfig config).history moves).lost config.hooks).length := by
  induction moves using List.reverseRecOn with
  | nil => rfl
  | append_singleton moves move ih =>
    have both := discards_iff_failed (single_run config moves) move
    rw [settlements_concat, history_concat, History.lost_concat, List.countP_append, List.length_append, ih]
    congr 1
    by_cases discards : ((ofConfig config).run moves).mark move = some .discarded
    · obtain ⟨settlement, settles, failed⟩ := both.mp discards
      rw [discards, settles, Option.toList_some, List.countP_singleton, failed]
      rfl
    · have kept : ∀ settlement ∈ (((ofConfig config).run moves).settlement? move).toList, ¬settlement.failed = true :=
        fun settlement settles failed => discards (both.mpr ⟨settlement, Option.mem_toList.mp settles, failed⟩)
      rw [List.countP_eq_zero.mpr kept, History.lostBy_of_kept _ discards]
      rfl

theorem lost_ne_nil (config : BusConfig) (moves : List Move) :
    ∀ frames ∈ ((ofConfig config).history moves).lost config.hooks, frames ≠ [] := by
  induction moves using List.reverseRecOn with
  | nil => exact fun _ member => (List.not_mem_nil member).elim
  | append_singleton moves move ih =>
    intro frames member
    rw [history_concat, History.lost_concat] at member
    rcases List.mem_append.mp member with old | new
    · exact ih frames old
    · obtain ⟨mark, told, lost⟩ := List.mem_flatMap.mp new
      cases mark with
      | discarded =>
        obtain rfl := List.mem_singleton.mp lost
        have books := books_present config moves
        have effect := ((ofConfig config).run moves).markedEffect_move move
        rw [Option.mem_toList.mp told] at effect
        obtain ⟨byte, offers, -⟩ := broken_of_discarded (single_run config moves) books effect
        rw [ne_eq, Frame.unfinished_eq_nil]
        intro all
        have length := (books.owes.offers_prefix.trans all).length_le
        rw [offers, List.length_append] at length
        exact Nat.not_succ_le_self _ length
      | _ => cases lost

/-- Whatever calls were made, and however their turns and the failures of the line fell: the errors
counted are the frames that the queue refused and the failures of the line, one error for each failure.
A failure loses the accepted frames that the line has not taken whole, and at least one of them. Once
all calls have returned no other frame is missing on the line, so the errors are the refused and the
lost frames together exactly if every failure has lost a single frame. -/
theorem errors_count_failures (config : BusConfig) (moves : List Move) :
    let traffic := (ofConfig config).run moves
    let history := (ofConfig config).history moves
    let refused := ((ofConfig config).settlements moves).countP Settlement.refused
    let lost := history.lost config.hooks
    traffic.bus.counters.txErrors = UInt32.ofNat (refused + lost.length) ∧
    (∀ frames ∈ lost, frames ≠ []) ∧
    ((∀ call ∈ traffic.calls, ∃ result, call = .returned result) →
      Frame.unfinished config.hooks history.present.frames history.present.carriage = []) ∧
    (refused + lost.length = refused + lost.flatten.length ↔ ∀ frames ∈ lost, frames.length = 1) := by
  intro traffic history refused lost
  have nonempty := lost_ne_nil config moves
  refine ⟨?_, nonempty, ?_, ?_⟩
  · rw [(tallies_run config moves).txErrors, Settlement.countP_erred, failed_run]
  · intro finished
    have nobody : ∀ call ∈ traffic.calls, call.drains = false := by
      intro call member
      obtain ⟨result, rfl⟩ := finished call member
      rfl
    rw [Frame.unfinished_eq_nil, (books_present config moves).wires_eq (single_run config moves) nobody]
  · rw [Nat.add_left_cancel_iff]
    exact length_eq_flatten nonempty

/-- While the first byte of a frame goes out two more are queued, and the line fails over that byte.
Three accepted frames are lost, none was refused, and one error is counted. -/
theorem lost_frames_uncounted :
    let message (destination : Address) : Message :=
      { destination, source := 1, flags := ⟨false, false⟩, ttl := 1, payload := [] }
    let turns (index count : Nat) : List Move := List.replicate count (.turn index fun _ => false)
    let queued : List Move :=
      .signal (message 2) :: turns 0 4 ++ .signal (message 3) :: turns 1 2 ++ .signal (message 4) :: turns 2 2
    let moves : List Move := queued ++ .answer 0 (.error .disconnected) :: turns 0 2
    let traffic := (ofConfig .standard).run moves
    let refused := ((ofConfig .standard).settlements moves).countP Settlement.refused
    let lost := ((ofConfig .standard).history moves).lost .checksum
    traffic.calls.map Call.result? = [some (.error (.frame (.line .disconnected))), some (.ok ()), some (.ok ())] ∧
      refused = 0 ∧ lost.map List.length = [3] ∧ traffic.bus.counters.txErrors = 1 ∧
      traffic.bus.counters.txErrors ≠ UInt32.ofNat (refused + lost.flatten.length) := by
  decide +kernel

end Traffic

end Hopline
