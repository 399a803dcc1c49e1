import Hopline.Proofs.Bus.Accounts

/-! Frames reach the line whole, in the order in which they were accepted, and each of them
once. Since the queue was last discarded, what the line was handed and what still waits are
together the accepted frames. A failing line cuts one frame short, and the discard that
answers the failure lets the next frame begin with its first byte. -/

namespace Hopline

/-- What the queue, the calls and the marks since the last discard have to do with each other. -/
structure Traffic.Books (traffic : Traffic) (hooks : FrameHooks) (stretch : History) : Prop where
  owes : traffic.bus.queue.Owes hooks stretch
  accounted : Accounted traffic.calls stretch

namespace Traffic

variable {before after : Traffic} {hooks : FrameHooks} {stretch : History} {mark : Option Mark}

theorem SingleDrainer.alone {index : Nat} {call : Call} (single : SingleDrainer before)
    (found : before.calls[index]? = some call) (drains : call.drains = true) :
    DrainsOnly before.calls index ∧ call.isStranded = false := by
  cases single with
  | resting rests nobody =>
    rw [nobody call (List.mem_of_getElem? found)] at drains
    cases drains
  | drained place drainer there holds alone =>
    obtain rfl := alone index call found drains
    cases found.symm.trans there
    exact ⟨alone, holds.found⟩

theorem SingleDrainer.nobody (single : SingleDrainer before) (idle : before.bus.queue.draining = false) :
    ∀ call ∈ before.calls, call.drains = false := by
  cases single with
  | resting rests nobody => exact nobody
  | drained index drainer found holds alone =>
    rw [show before.bus.queue.draining = true from holds.draining] at idle
    cases idle

theorem books_turn {index : Nat} {call : Call} {alive : HandlerId → Bool} {turn : Turn}
    (single : SingleDrainer before) (books : before.Books hooks stretch) (found : before.calls[index]? = some call)
    (advanced : before.bus.advance alive call = some turn) :
    Books { bus := turn.bus, calls := before.calls.set index turn.call } hooks
      (stretch.since (before.bus.mark call)) := by
  refine ⟨books.owes.step (Bus.markedStep_advance advanced), ?_⟩
  cases drains : call.drains with
  | false =>
    have same : stretch.SameLine (stretch.since (before.bus.mark call)) :=
      History.sameLine_since (Bus.mark_of_apart drains)
    cases Bus.passes_advance drains advanced with
    | beside queue line apart =>
      exact books.accounted.beside found drains same (by rw [apart]; intro never; cases never)
        fun even => Call.accounts_of_even (same.even even) apart
    | queues busy draining line apart =>
      exact books.accounted.beside found drains same (by rw [apart]; intro never; cases never)
        fun even => Call.accounts_of_even (same.even even) apart
    | claims idle draining line origin frame claimed =>
      rw [claimed]
      exact books.accounted.beside found drains same (fun _ => books.accounted.nobody (single.nobody idle))
        fun even => same.even even
  | true =>
    have accounts := books.accounted.drainer call (List.mem_of_getElem? found) drains
    exact .drive (single.alone found drains).1 (List.getElem?_eq_some_iff.mp found).1
      (Bus.accounts_advance drains accounts advanced)

theorem books_answer {index : Nat} {call next : Call} {mark : Mark} (single : SingleDrainer before)
    (books : before.Books hooks stretch) (found : before.calls[index]? = some call) (drains : call.drains = true)
    (bystander : mark.frame? = none) (answer : mark.offer? = none) (kept : mark ≠ .discarded)
    (accounts : call.Accounts stretch → next.Accounts (stretch ++ [mark])) :
    Books { before with calls := before.calls.set index next } hooks (stretch ++ [mark]) := by
  have known := books.accounted.drainer call (List.mem_of_getElem? found) drains
  exact ⟨books.owes.answered bystander answer kept,
    .drive (single.alone found drains).1 (List.getElem?_eq_some_iff.mp found).1 (accounts known)⟩

theorem books_effect (single : SingleDrainer before) (books : before.Books hooks stretch)
    (effect : before.MarkedEffect mark after) : after.Books hooks (stretch.since mark) := by
  cases effect with
  | silent queue calls => exact ⟨queue ▸ books.owes, calls ▸ books.accounted⟩
  | begins call entry => exact ⟨books.owes, books.accounted.append entry.apart⟩
  | turns found advanced => exact books_turn single books found advanced
  | handled found =>
    refine ⟨books.owes, books.accounted.beside found rfl ⟨rfl, rfl, rfl⟩ ?_ ?_⟩
    · intro never
      cases never
    · exact id
  | @carried index origin frame sent byte found =>
    refine books_answer single books found rfl rfl rfl (by intro never; cases never) ?_
    rintro ⟨offers, losses⟩
    refine ⟨?_, ?_⟩
    · rw [History.offers_append, History.carriage_append, offers]
      exact List.append_nil _
    · rw [History.losses_append, losses]
      rfl
  | @lost index origin frame sent byte error found =>
    refine books_answer single books found rfl rfl rfl (by intro never; cases never) ?_
    rintro ⟨offers, losses⟩
    refine ⟨byte, ?_, ?_⟩
    · rw [History.offers_append, History.carriage_append, offers]
      show stretch.carriage ++ [byte] ++ [] = stretch.carriage ++ [] ++ [byte]
      rw [List.append_nil, List.append_nil]
    · rw [History.losses_append, losses]
      rfl

/-- Only a failure of the line makes a call discard the queue. -/
theorem broken_of_discarded (single : SingleDrainer before) (books : before.Books hooks stretch)
    (effect : before.MarkedEffect (some .discarded) after) : stretch.Broken := by
  generalize told : some Mark.discarded = mark at effect
  cases effect with
  | silent | begins | handled => cases told
  | carried | lost => cases told
  | @turns index call alive turn found advanced =>
    have known := books.accounted.drainer call (List.mem_of_getElem? found)
    cases call with
    | discarding => exact known rfl
    | stranded => cases (single.alone found rfl).2
    | queueing =>
      unfold Bus.mark at told
      dsimp only at told
      split at told <;> cases told
    | draining =>
      unfold Bus.mark at told
      obtain ⟨byte, -, offered⟩ := Option.map_eq_some_iff.mp told.symm
      cases offered
    | _ => cases told

end Traffic

/-- What holds of the marks between two discards, and of those after the last one. -/
structure History.InOrder (hooks : FrameHooks) (stretch : History) : Prop where
  unbroken : Mark.discarded ∉ stretch
  encoded : ∀ frame ∈ stretch.frames, frame.encode hooks = .ok (frame.wire hooks)
  offers : stretch.offers <+: Frame.wires hooks stretch.frames
  carriage : stretch.carriage <+: stretch.offers
  losses : stretch.losses.length ≤ 1

theorem Traffic.Books.inOrder {traffic : Traffic} {hooks : FrameHooks} {stretch : History}
    (books : traffic.Books hooks stretch) (single : SingleDrainer traffic) : stretch.InOrder hooks := by
  obtain ⟨unbroken, encoded⟩ := And.intro books.owes.unbroken books.owes.encoded
  have offers := books.owes.offers_prefix
  cases single with
  | resting rests nobody =>
    obtain ⟨same, none⟩ := books.accounted.nobody nobody
    exact ⟨unbroken, encoded, offers, same ▸ List.prefix_rfl, by rw [none]; exact Nat.zero_le 1⟩
  | drained index drainer found holds alone =>
    have accounts := books.accounted.drainer drainer (List.mem_of_getElem? found) holds.drains
    obtain ⟨hand, taken, losses⟩ := accounts.exists_hand
    exact ⟨unbroken, encoded, offers, ⟨hand, taken.symm⟩, losses⟩

namespace Traffic

/-- Every discard closes a stretch in which the line failed once; the marks behind the last one
agree with the bus as it stands. -/
theorem books_run (config : BusConfig) (moves : List Move) :
    ∃ (closed : List History) (current : History),
      (ofConfig config).history moves = closed.flatMap (· ++ [.discarded]) ++ current ∧
      Books ((ofConfig config).run moves) config.hooks current ∧
      ∀ stretch ∈ closed, stretch.InOrder config.hooks ∧ stretch.Broken := by
  -- from the last move back: it is the one that may close the current stretch
  induction moves using List.reverseRecOn with
  | nil =>
    have accounted : Accounted [] [] := ⟨fun call member => (List.not_mem_nil member).elim, fun _ => History.even_nil⟩
    exact ⟨[], [], rfl, ⟨TransmitQueue.owes_nil rfl rfl, accounted⟩, fun stretch member => (List.not_mem_nil member).elim⟩
  | append_singleton moves move ih =>
    obtain ⟨closed, current, split, books, past⟩ := ih
    have single := single_run config moves
    have effect := ((ofConfig config).run moves).markedEffect_move move
    have kept := books_effect single books effect
    rw [history_concat, run_append, split]
    cases told : ((ofConfig config).run moves).mark move with
    | none =>
      rw [told] at kept
      exact ⟨closed, current, List.append_nil _, kept, past⟩
    | some mark =>
      rw [told] at kept effect
      by_cases discards : mark = .discarded
      · subst mark
        refine ⟨closed ++ [current], [], ?_, kept, ?_⟩
        · rw [List.flatMap_append, List.flatMap_singleton, List.append_nil, List.append_assoc]
          rfl
        · intro stretch member
          rcases List.mem_append.mp member with old | new
          · exact past stretch old
          · rw [List.mem_singleton.mp new]
            exact ⟨books.inOrder single, broken_of_discarded single books effect⟩
      · have extended : current.since (some mark) = current ++ [mark] := by
          cases mark with
          | discarded => exact absurd rfl discards
          | _ => rfl
        rw [extended] at kept
        exact ⟨closed, current ++ [mark], List.append_assoc _ _ _, kept, past⟩

/-- Whatever calls were made, and however their turns fell: on a line that never fails the bytes
handed over are the accepted frames in the order of acceptance, up to the present byte, and all of
them once nobody is in the bus. On a line that fails this holds from each discard to the next: what
the line took in between spells the frames accepted in between, whole and in order, and at most one
more in part. -/
theorem frames_in_order (config : BusConfig) (moves : List Move) :
    let traffic := (ofConfig config).run moves
    let history := (ofConfig config).history moves
    (∀ frame ∈ history.frames, frame.encode config.hooks = .ok (frame.wire config.hooks)) ∧
    (history.losses = [] →
      history.offers <+: Frame.wires config.hooks history.frames ∧
      ((∀ call ∈ traffic.calls, ∃ result, call = .returned result) →
        history.offers = Frame.wires config.hooks history.frames ∧
        history.carriage = Frame.wires config.hooks history.frames)) ∧
    ∃ (closed : List History) (current : History),
      history = closed.flatMap (· ++ [.discarded]) ++ current ∧
      (∀ stretch ∈ closed, stretch.losses.length = 1) ∧ current.losses.length ≤ 1 ∧
      ∀ stretch ∈ closed ++ [current], Mark.discarded ∉ stretch ∧
        stretch.carriage <+: Frame.wires config.hooks stretch.frames ∧
        ∃ (whole rest : List Frame) (part : Bytes), stretch.frames = whole ++ rest ∧
          stretch.carriage = Frame.wires config.hooks whole ++ part ∧
          (part = [] ∨ ∃ (cut : Frame) (later : List Frame), rest = cut :: later ∧
            part <+: cut.wire config.hooks ∧ part.length < cut.wireSize) := by
  intro traffic history
  have single := single_run config moves
  obtain ⟨closed, current, split, books, past⟩ := books_run config moves
  have present := books.inOrder single
  have ordered : ∀ stretch ∈ closed ++ [current], stretch.InOrder config.hooks := by
    intro stretch member
    rcases List.mem_append.mp member with old | new
    · exact (past stretch old).1
    · rw [List.mem_singleton.mp new]
      exact present
  refine ⟨?_, ?_, closed, current, split, ?_, present.losses, ?_⟩
  · intro frame member
    rw [show history = _ from split, History.frames_append, List.mem_append] at member
    rcases member with old | new
    · obtain ⟨mark, inside, accepted⟩ := List.mem_filterMap.mp old
      obtain ⟨stretch, among, within⟩ := List.mem_flatMap.mp inside
      rcases List.mem_append.mp within with within | closing
      · exact (past stretch among).1.encoded frame (List.mem_filterMap.mpr ⟨mark, within, accepted⟩)
      · rw [List.mem_singleton.mp closing] at accepted
        cases accepted
    · exact present.encoded frame new
  · intro sound
    obtain rfl : closed = [] := by
      cases closed with
      | nil => rfl
      | cons stretch rest =>
        obtain ⟨byte, -, losses⟩ := (past stretch List.mem_cons_self).2
        rw [show history = _ from split, List.flatMap_cons] at sound
        simp only [History.losses_append, losses, List.append_assoc, List.cons_append] at sound
        cases sound
    have whole : history = current := split
    rw [whole]
    refine ⟨present.offers, ?_⟩
    intro outside
    cases single with
    | resting rests nobody =>
      have balance := books.owes.balance
      rw [rests.empty, List.append_nil] at balance
      exact ⟨balance.symm, (books.accounted.nobody nobody).1.symm.trans balance.symm⟩
    | drained index drainer found holds alone =>
      obtain ⟨result, rfl⟩ := outside drainer (List.mem_of_getElem? found)
      cases holds.drains
  · intro stretch member
    obtain ⟨byte, -, losses⟩ := (past stretch member).2
    rw [losses]
    rfl
  · intro stretch member
    have order := ordered stretch member
    have front := order.carriage.trans order.offers
    exact ⟨order.unbroken, front, Frame.exists_cut front⟩

end Traffic

end Hopline
