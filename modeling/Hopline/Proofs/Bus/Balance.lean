import Hopline.Proofs.Bus.Settlement

/-! Every message that a bus takes on is settled once. So the counters add up to the messages
that were taken on, and a sender is told of an error exactly when one was counted for it. -/

namespace Hopline

/-- A message that a bus takes on. -/
def Message.Sendable (message : Message) : Prop := message.payload.length ≤ maxPayload ∧ message.ttl ≠ 0

instance (message : Message) : Decidable message.Sendable := inferInstanceAs (Decidable (_ ∧ _))

namespace Move

/-- A sender hands a message over that the bus takes on. -/
def sends : Move → Bool
  | .signal message => message.Sendable
  | _ => false

def fromLine : Move → Bool
  | .ingest _ | .receive _ => true
  | _ => false

/-- The call that a move lets go on. -/
def index? : Move → Option Nat
  | .turn index _ | .reply index | .answer index _ => some index
  | _ => none

end Move

/-- The moves of a run that begin its calls, in the order of the calls. -/
def begun (moves : List Move) : List Move := moves.filter (·.call?.isSome)

theorem begun_of_bystander {move : Move} (bystander : move.call? = none) : begun [move] = [] := by
  simp [begun, bystander]

theorem begun_of_call {move : Move} {call : Call} (entry : move.call? = some call) : begun [move] = [move] := by
  simp [begun, entry]

theorem Call.load?_ofMessage {message : Message} (sendable : message.Sendable) :
    (Call.ofMessage message).load? = some (.sent, ⟨message, sendable.1⟩) := by
  have carried : Frame.ofMessage message = .ok ⟨message, sendable.1⟩ := dif_pos sendable.1
  unfold ofMessage signal
  rw [if_neg (Nat.not_lt.mpr sendable.1), if_neg sendable.2, carried]
  rfl

theorem Call.exists_ofMessage {message : Message} (unfit : ¬message.Sendable) :
    ∃ error, Call.ofMessage message = .returned (.error error) ∧ ∀ lower, error ≠ .frame lower := by
  unfold ofMessage signal
  by_cases large : maxPayload < message.payload.length
  · rw [if_pos large]
    exact ⟨_, rfl, nofun⟩
  · rw [if_neg large]
    by_cases spent : message.ttl = 0
    · rw [if_pos spent]
      exact ⟨_, rfl, nofun⟩
    · exact absurd ⟨Nat.le_of_not_lt large, spent⟩ unfit

theorem Call.Resumes.load? {call next : Call} (answered : call.Resumes next) : next.load? = call.load? := by
  cases answered <;> rfl

/-- Each counter holds the number of messages that ended its way. -/
structure Counters.Tallies (counters : Counters) (settled : List Settlement) : Prop where
  delivered : counters.delivered = UInt32.ofNat (settled.countP Settlement.delivered)
  expired : counters.expired = UInt32.ofNat (settled.countP Settlement.expired)
  transmitted : counters.transmitted = UInt32.ofNat (settled.countP Settlement.transmitted)
  forwarded : counters.forwarded = UInt32.ofNat (settled.countP Settlement.forwarded)
  txErrors : counters.txErrors = UInt32.ofNat (settled.countP Settlement.erred)

section

variable {counters : Counters} {settled : List Settlement}

theorem Counters.tallies_zero : Counters.zero.Tallies [] := ⟨rfl, rfl, rfl, rfl, rfl⟩

theorem Settlement.ofNat_countP_concat (counts : Settlement → Bool) (settled : List Settlement) (last : Settlement) :
    UInt32.ofNat ((settled ++ [last]).countP counts) =
      UInt32.ofNat (settled.countP counts) + if counts last then 1 else 0 := by
  rw [List.countP_append, List.countP_singleton, UInt32.ofNat_add]
  cases counts last <;> rfl

theorem Counters.Tallies.add (tallies : counters.Tallies settled) (last : Settlement) :
    (last.ending.count last.origin counters).Tallies (settled ++ [last]) := by
  constructor
  · rw [Settlement.ofNat_countP_concat, ← tallies.delivered, Settlement.delivered]
    cases last.ending <;> cases last.origin <;> simp [Ending.count]
  · rw [Settlement.ofNat_countP_concat, ← tallies.expired, Settlement.expired]
    cases last.ending <;> cases last.origin <;> simp [Ending.count]
  · rw [Settlement.ofNat_countP_concat, ← tallies.transmitted, Settlement.transmitted]
    cases last.ending <;> cases last.origin <;> simp [Ending.count]
  · rw [Settlement.ofNat_countP_concat, ← tallies.forwarded, Settlement.forwarded, Settlement.transmitted]
    cases last.ending <;> cases last.origin <;> simp [Ending.count]
  · rw [Settlement.ofNat_countP_concat, ← tallies.txErrors, Settlement.erred, Settlement.refused, Settlement.failed]
    cases last.ending <;> cases last.origin <;> simp [Ending.count]

theorem Settlement.length_eq (settled : List Settlement) :
    settled.countP delivered + settled.countP transmitted + settled.countP erred + settled.countP expired =
      settled.length := by
  induction settled with
  | nil => rfl
  | cons first rest ih =>
    obtain ⟨index, origin, ending⟩ := first
    simp only [List.countP_cons, List.length_cons, ← ih]
    cases ending <;> simp [delivered, transmitted, erred, refused, failed, expired] <;> omega

theorem Settlement.forwarded_le (settled : List Settlement) :
    settled.countP forwarded ≤ settled.countP transmitted := by
  apply List.countP_mono_left
  intro settlement _ forwarded
  exact (Bool.and_eq_true_iff.mp forwarded).2

end

/-- What a call has done for the move that began it, and the settlements that it has made. -/
inductive Call.Serves : Move → Call → List Settlement → Prop
  | rejected {message : Message} (unfit : ¬message.Sendable) (error : BusError) (early : ∀ lower, error ≠ .frame lower) :
    Serves (.signal message) (.returned (.error error)) []
  | sending {message : Message} (sendable : message.Sendable) {call : Call}
    (load : call.load? = some (.sent, ⟨message, sendable.1⟩)) : Serves (.signal message) call []
  | sent {message : Message} (sendable : message.Sendable) (index : Nat) (ending : Ending) :
    Serves (.signal message) (.returned (ending.result .sent)) [⟨index, .sent, ending⟩]
  | hearing (byte : UInt8) : Serves (.ingest byte) (.hearing byte) []
  | unheard (byte : UInt8) : Serves (.ingest byte) (.returned (.ok ())) []
  | relaying {move : Move} (incoming : move.fromLine = true) {call : Call} {frame : Frame}
    (load : call.load? = some (.received, frame)) : Serves move call []
  | relayed {move : Move} (incoming : move.fromLine = true) (index : Nat) (ending : Ending) :
    Serves move (.returned (ending.result .received)) [⟨index, .received, ending⟩]

namespace Call

variable {move : Move} {call next : Call} {file : List Settlement}

theorem serves_of_begins (entry : move.call? = some call) : call.Serves move [] := by
  cases move with
  | signal message =>
    obtain rfl := Option.some.inj entry
    by_cases sendable : message.Sendable
    · exact .sending sendable (load?_ofMessage sendable)
    · obtain ⟨error, returned, early⟩ := exists_ofMessage sendable
      rw [returned]
      exact .rejected sendable error early
  | ingest byte =>
    obtain rfl := Option.some.inj entry
    exact .hearing byte
  | receive frame =>
    obtain rfl := Option.some.inj entry
    exact .relaying rfl rfl
  | _ => cases entry

theorem Serves.carry {origin : Origin} {frame onward : Frame} (serves : call.Serves move file)
    (before : call.load? = some (origin, frame)) (after : next.load? = some (origin, onward))
    (same : origin = .sent → onward = frame) : next.Serves move file := by
  cases serves with
  | rejected | sent | hearing | unheard | relayed => cases before
  | sending sendable load =>
    cases load.symm.trans before
    exact .sending sendable (same rfl ▸ after)
  | relaying incoming load =>
    cases load.symm.trans before
    exact .relaying incoming after

theorem Serves.settle {origin : Origin} {frame : Frame} (serves : call.Serves move file)
    (before : call.load? = some (origin, frame)) (index : Nat) (ending : Ending) :
    (Call.returned (ending.result origin)).Serves move (file ++ [⟨index, origin, ending⟩]) := by
  cases serves with
  | rejected | sent | hearing | unheard | relayed => cases before
  | sending sendable load =>
    cases load.symm.trans before
    exact .sent sendable index ending
  | relaying incoming load =>
    cases load.symm.trans before
    exact .relayed incoming index ending

theorem Serves.length_le (serves : call.Serves move file) : file.length ≤ 1 := by
  cases serves with
  | sent | relayed => exact Nat.le_refl 1
  | _ => exact Nat.zero_le 1

theorem Serves.exists_error {message : Message} {result : Except BusError Unit}
    (serves : (Call.returned result).Serves (.signal message) file) :
    (∃ error, result = .error error) ↔ ¬message.Sendable ∨ ∃ settlement ∈ file, settlement.erred = true := by
  cases serves with
  | rejected unfit error early => exact ⟨fun _ => .inl unfit, fun _ => ⟨error, rfl⟩⟩
  | sending sendable load => cases load
  | sent sendable index ending =>
    simp only [sendable, not_true_eq_false, false_or, List.mem_singleton, exists_eq_left]
    cases ending <;> simp [Ending.result, Settlement.erred, Settlement.refused, Settlement.failed]
  | relaying incoming | relayed incoming => cases incoming

end Call

namespace Traffic

/-- The settlements that the call at `index` has made. -/
def file (settled : List Settlement) (index : Nat) : List Settlement := settled.filter (·.call == index)

structure Attended (traffic : Traffic) (begun : List Move) (settled : List Settlement) : Prop where
  length : traffic.calls.length = begun.length
  known : ∀ settlement ∈ settled, settlement.call < traffic.calls.length
  serves : ∀ (index : Nat) (move : Move) (call : Call), begun[index]? = some move →
    traffic.calls[index]? = some call → call.Serves move (file settled index)

variable {before after : Traffic} {started : List Move} {settled : List Settlement} {move : Move}

theorem Attended.exists_serves {index : Nat} {call : Call} (attended : before.Attended started settled)
    (found : before.calls[index]? = some call) :
    ∃ move, started[index]? = some move ∧ call.Serves move (file settled index) := by
  have begins := attended.length ▸ (List.getElem?_eq_some_iff.mp found).1
  have origin := List.getElem?_eq_getElem begins
  exact ⟨_, origin, attended.serves index _ call origin found⟩

theorem Attended.file_of_absent {index : Nat} (attended : before.Attended started settled)
    (absent : before.calls.length ≤ index) : file settled index = [] := by
  rw [file, List.filter_eq_nil_iff]
  intro settlement member filed
  have inside := attended.known settlement member
  rw [beq_iff_eq.mp filed] at inside
  exact Nat.not_lt.mpr absent inside

theorem Attended.begin {call : Call} (attended : before.Attended started settled) (entry : move.call? = some call) :
    Attended { before with calls := before.calls ++ [call] } (started ++ [move]) settled := by
  have length := attended.length
  refine ⟨?_, ?_, ?_⟩
  · rw [List.length_append, List.length_append, length]
    rfl
  · intro settlement member
    rw [List.length_append]
    exact Nat.lt_add_right 1 (attended.known settlement member)
  · intro index other found begun here
    by_cases old : index < before.calls.length
    · rw [List.getElem?_append_left (length ▸ old)] at begun
      rw [List.getElem?_append_left old] at here
      exact attended.serves index other found begun here
    · have behind := Nat.le_of_not_lt old
      rw [List.getElem?_append_right (length ▸ behind), List.getElem?_singleton] at begun
      rw [List.getElem?_append_right behind, List.getElem?_singleton] at here
      split at here
      next last =>
        rw [← length, if_pos last] at begun
        obtain rfl := Option.some.inj begun
        obtain rfl := Option.some.inj here
        rw [attended.file_of_absent behind]
        exact Call.serves_of_begins entry
      next => cases here

theorem Attended.proceed {index : Nat} {call next : Call} {bus : Bus} {last : List Settlement}
    (attended : before.Attended started settled) (found : before.calls[index]? = some call)
    (own : ∀ settlement ∈ last, settlement.call = index)
    (serves : ∀ move filed, call.Serves move filed → next.Serves move (filed ++ last)) :
    Attended ⟨bus, before.calls.set index next⟩ started (settled ++ last) := by
  have inside := (List.getElem?_eq_some_iff.mp found).1
  refine ⟨?_, ?_, ?_⟩
  · rw [List.length_set, attended.length]
  · intro settlement member
    rw [List.length_set]
    rcases List.mem_append.mp member with old | new
    · exact attended.known settlement old
    · rw [own settlement new]
      exact inside
  · intro other move here begun there
    rw [file, List.filter_append]
    by_cases same : index = other
    · subst other
      rw [List.getElem?_set_self inside] at there
      obtain rfl := Option.some.inj there
      rw [List.filter_eq_self.mpr fun settlement member => beq_iff_eq.mpr (own settlement member)]
      exact serves move _ (attended.serves index move call begun found)
    · rw [List.getElem?_set_ne same] at there
      have apart : last.filter (·.call == other) = [] := by
        rw [List.filter_eq_nil_iff]
        intro settlement member filed
        exact same ((own settlement member).symm.trans (beq_iff_eq.mp filed))
      rw [apart, List.append_nil]
      exact attended.serves other move here begun there

theorem Attended.goes {index : Nat} {call next : Call} {bus : Bus} (attended : before.Attended started settled)
    (bystander : move.call? = none) (found : before.calls[index]? = some call)
    (serves : ∀ move filed, call.Serves move filed → next.Serves move filed) :
    Attended ⟨bus, before.calls.set index next⟩ (started ++ begun [move])
      (settled ++ (none : Option Settlement).toList) := by
  rw [begun_of_bystander bystander, List.append_nil, Option.toList_none]
  refine attended.proceed found nofun fun move filed here => ?_
  rw [List.append_nil]
  exact serves move filed here

theorem Attended.step {settlement : Option Settlement} {arrival : Option Frame}
    (attended : before.Attended started settled) (step : before.Step move settlement arrival after) :
    after.Attended (started ++ begun [move]) (settled ++ settlement.toList) := by
  cases step with
  | silent bystander calls counters =>
    rw [begun_of_bystander bystander, List.append_nil, Option.toList_none, List.append_nil]
    exact ⟨calls ▸ attended.length, calls ▸ attended.known, calls ▸ attended.serves⟩
  | begins entry =>
    rw [begun_of_call entry, Option.toList_none, List.append_nil]
    exact attended.begin entry
  | resumes bystander found answered =>
    refine attended.goes bystander found fun move filed serves => ?_
    cases answered with
    | handled | taken | refused => exact serves.carry rfl rfl fun _ => rfl
  | listens found returned counters =>
    refine attended.goes rfl found fun move filed serves => ?_
    rw [returned]
    cases serves with
    | sending sendable load | relaying incoming load => cases load
    | hearing => exact .unheard _
  | hears found routing counters =>
    refine attended.goes rfl found fun move filed serves => ?_
    rw [routing]
    cases serves with
    | sending sendable load | relaying incoming load => cases load
    | hearing => exact .relaying rfl rfl
  | carries found load onward same counters =>
    exact attended.goes rfl found fun move filed serves => serves.carry load onward same
  | settles found load returned counters =>
    rw [begun_of_bystander rfl, List.append_nil]
    refine attended.proceed found (by simp) fun move filed serves => ?_
    rw [returned]
    exact serves.settle load _ _

theorem attended_run (config : BusConfig) (moves : List Move) :
    ((ofConfig config).run moves).Attended (begun moves) ((ofConfig config).settlements moves) := by
  induction moves using List.reverseRecOn with
  | nil => exact ⟨rfl, fun _ member => (List.not_mem_nil member).elim, fun _ _ _ found => (nomatch found)⟩
  | append_singleton moves move ih =>
    have step := ih.step (((ofConfig config).run moves).step_move move)
    rw [settlements_concat, run_concat, begun, List.filter_append]
    exact step

theorem tallies_step {settlement : Option Settlement} {arrival : Option Frame}
    (tallies : before.bus.counters.Tallies settled) (step : before.Step move settlement arrival after) :
    after.bus.counters.Tallies (settled ++ settlement.toList) := by
  cases step with
  | silent bystander calls counters | listens found returned counters | hears found routing counters
  | carries found load onward same counters =>
    rw [counters, Option.toList_none, List.append_nil]
    exact tallies
  | begins | resumes =>
    rw [Option.toList_none, List.append_nil]
    exact tallies
  | settles found load returned counters =>
    rw [counters]
    exact tallies.add ⟨_, _, _⟩

theorem tallies_run (config : BusConfig) (moves : List Move) :
    ((ofConfig config).run moves).bus.counters.Tallies ((ofConfig config).settlements moves) := by
  induction moves using List.reverseRecOn with
  | nil => exact Counters.tallies_zero
  | append_singleton moves move ih =>
    rw [settlements_concat, run_concat]
    exact tallies_step ih (((ofConfig config).run moves).step_move move)

/-- How many messages are under way. -/
def load (traffic : Traffic) : Nat := traffic.calls.countP (·.load?.isSome)

theorem load_set {index : Nat} {call : Call} (bus : Bus) (found : before.calls[index]? = some call) (next : Call) :
    load ⟨bus, before.calls.set index next⟩ + call.load?.isSome.toNat = before.load + next.load?.isSome.toNat := by
  obtain ⟨inside, here⟩ := List.getElem?_eq_some_iff.mp found
  have counted : call.load?.isSome = true → 0 < before.load := fun loaded =>
    List.countP_pos_iff.mpr ⟨call, List.mem_of_getElem? found, loaded⟩
  unfold load at counted ⊢
  rw [List.countP_set inside, here]
  cases loaded : call.load?.isSome with
  | true =>
    have enough := counted loaded
    cases next.load?.isSome <;> simp <;> omega
  | false => cases next.load?.isSome <;> simp

theorem load_begin {call : Call} (entry : move.call? = some call) :
    call.load?.isSome.toNat = move.sends.toNat + (before.arrival? move).toList.length := by
  cases move with
  | signal message =>
    obtain rfl := Option.some.inj entry
    by_cases sendable : message.Sendable
    · rw [Call.load?_ofMessage sendable, Move.sends, decide_eq_true sendable]
      rfl
    · obtain ⟨error, returned, -⟩ := Call.exists_ofMessage sendable
      rw [returned, Move.sends, decide_eq_false sendable]
      rfl
  | ingest | receive =>
    obtain rfl := Option.some.inj entry
    rfl
  | turn | reply | answer | register | resetWindow => cases entry

theorem sends_of_bystander (bystander : move.call? = none) : move.sends = false := by
  cases move with
  | signal => cases bystander
  | _ => rfl

/-- A message that has come onto the bus is under way until it is settled. -/
theorem load_step {settlement : Option Settlement} {arrival : Option Frame}
    (step : before.Step move settlement arrival after) :
    after.load + settlement.toList.length = before.load + (move.sends.toNat + arrival.toList.length) := by
  cases step with
  | silent bystander calls counters =>
    rw [load, calls, sends_of_bystander bystander]
    rfl
  | @begins move call entry =>
    rw [load, List.countP_append, List.countP_singleton, ← load_begin entry]
    cases call.load?.isSome <;> rfl
  | @resumes move index call next bystander found answered =>
    have kept := load_set before.bus found next
    rw [answered.load?] at kept
    rw [sends_of_bystander bystander]
    exact Nat.add_right_cancel kept
  | @listens _ _ _ turn found returned counters =>
    have kept := load_set turn.bus found turn.call
    rw [returned] at kept ⊢
    exact kept
  | @hears _ _ _ _ turn found routing counters =>
    have kept := load_set turn.bus found turn.call
    rw [routing] at kept ⊢
    exact kept
  | @carries _ _ _ _ _ _ turn found loaded onward same counters =>
    have kept := load_set turn.bus found turn.call
    rw [loaded, onward] at kept
    exact Nat.add_right_cancel kept
  | @settles _ _ _ _ _ _ turn found loaded returned counters =>
    have kept := load_set turn.bus found turn.call
    rw [loaded, returned] at kept
    rw [returned]
    exact kept

theorem load_run (config : BusConfig) (moves : List Move) :
    ((ofConfig config).run moves).load + ((ofConfig config).settlements moves).length =
      moves.countP Move.sends + ((ofConfig config).arrivals moves).length := by
  induction moves using List.reverseRecOn with
  | nil => rfl
  | append_singleton moves move ih =>
    have step := load_step (((ofConfig config).run moves).step_move move)
    have sends : [move].countP Move.sends = move.sends.toNat := by
      rw [List.countP_singleton]
      cases move.sends <;> rfl
    rw [run_concat, settlements_concat, arrivals_concat, List.length_append, List.length_append, List.countP_append,
      sends]
    omega

theorem txErrors_turn (traffic : Traffic) (index : Nat) (alive : HandlerId → Bool) :
    (traffic.turn index alive).bus.counters.txErrors = traffic.bus.counters.txErrors + 1 ↔
      ∃ settlement, traffic.settlement? (.turn index alive) = some settlement ∧ settlement.erred = true := by
  have step := traffic.step_turn index alive
  generalize moved : Move.turn index alive = move at step ⊢
  generalize traffic.settlement? move = settlement, traffic.arrival? move = arrival, traffic.turn index alive = after
    at step ⊢
  -- also a counter that wraps is never its own successor
  have stays (counter : UInt32) : counter ≠ counter + 1 := by simp
  have unsettled {counters : Counters} (same : counters = traffic.bus.counters) :
      counters.txErrors = traffic.bus.counters.txErrors + 1 ↔
        ∃ settlement : Settlement, (none : Option Settlement) = some settlement ∧ settlement.erred = true := by
    subst counters
    exact ⟨fun more => absurd more (stays _), fun ⟨_, never, _⟩ => nomatch never⟩
  cases step with
  | silent bystander calls counters | listens found returned counters | hears found routing counters
  | carries found load onward same counters => exact unsettled counters
  | begins | resumes => exact unsettled rfl
  | @settles _ _ _ origin _ ending _ found load returned counters =>
    rw [counters]
    simp only [Option.some.injEq, exists_eq_left']
    cases ending with
    | refused | failed => exact ⟨fun _ => rfl, fun _ => rfl⟩
    | transmitted => cases origin <;> exact ⟨fun more => absurd more (stays _), fun never => nomatch never⟩
    | delivered | expired => exact ⟨fun more => absurd more (stays _), fun never => nomatch never⟩

/-- In its turn the call at `index` adds one to the errors. -/
def CountsError (traffic : Traffic) (moves : List Move) (index : Nat) : Prop :=
  ∃ (front : List Move) (alive : HandlerId → Bool) (back : List Move), moves = front ++ .turn index alive :: back ∧
    ((traffic.run front).turn index alive).bus.counters.txErrors = (traffic.run front).bus.counters.txErrors + 1

theorem countsError_iff {traffic : Traffic} {moves : List Move} {index : Nat} :
    traffic.CountsError moves index ↔
      ∃ settlement ∈ file (traffic.settlements moves) index, settlement.erred = true := by
  constructor
  · rintro ⟨front, alive, back, split, counted⟩
    obtain ⟨settlement, settles, erred⟩ := ((traffic.run front).txErrors_turn index alive).mp counted
    obtain ⟨_, here⟩ := turn_of_settlement? settles
    obtain rfl : index = settlement.call := (Move.turn.inj here).1
    have made := mem_notes.mpr ⟨front, _, back, split, settles⟩
    exact ⟨settlement, List.mem_filter.mpr ⟨made, beq_self_eq_true _⟩, erred⟩
  · rintro ⟨settlement, member, erred⟩
    obtain ⟨made, own⟩ := List.mem_filter.mp member
    obtain ⟨front, move, back, split, settles⟩ := mem_notes.mp made
    obtain ⟨alive, rfl⟩ := turn_of_settlement? settles
    obtain rfl : settlement.call = index := beq_iff_eq.mp own
    exact ⟨front, alive, back, split, ((traffic.run front).txErrors_turn _ alive).mpr ⟨settlement, settles, erred⟩⟩

/-- The moves of the call at `index`: the one that begins it, and those that let it go on. -/
def Owns (traffic : Traffic) (index : Nat) (move : Move) : Prop :=
  move.call?.isSome = true ∧ traffic.calls.length = index ∨ move.index? = some index

theorem inert_of_returned {traffic : Traffic} {index : Nat} {move : Move} (own : move.index? = some index)
    (finished : ∀ call, traffic.calls[index]? = some call → ∃ result, call = .returned result) :
    (traffic.move move).bus = traffic.bus ∧ traffic.mark move = none := by
  have resumed (next : Call → Call) : (traffic.resume index next).bus = traffic.bus := by
    unfold resume
    split <;> rfl
  cases move with
  | signal | ingest | receive | register | resetWindow => cases own
  | reply other =>
    obtain rfl : other = index := Option.some.inj own
    exact ⟨resumed _, rfl⟩
  | answer other answer =>
    obtain rfl : other = index := Option.some.inj own
    refine ⟨resumed _, ?_⟩
    dsimp only [mark]
    cases found : traffic.calls[other]? with
    | none => rfl
    | some call =>
      obtain ⟨result, rfl⟩ := finished call found
      rfl
  | turn other alive =>
    obtain rfl : other = index := Option.some.inj own
    dsimp only [Traffic.move, turn, mark]
    cases found : traffic.calls[other]? with
    | none => exact ⟨rfl, rfl⟩
    | some call =>
      obtain ⟨result, rfl⟩ := finished call found
      exact ⟨rfl, rfl⟩

theorem returned_run {traffic : Traffic} {index : Nat} {result : Except BusError Unit}
    (returned : traffic.calls[index]? = some (.returned result)) (moves : List Move) :
    (traffic.run moves).calls[index]? = some (.returned result) := by
  refine @run_induction (fun traffic => traffic.calls[index]? = some (.returned result)) traffic returned ?_ moves
  intro before after effect here
  have elsewhere {other : Nat} {call next : Call} (found : before.calls[other]? = some call)
      (goes : call ≠ .returned result) : (before.calls.set other next)[index]? = some (.returned result) := by
    rw [List.getElem?_set_ne, here]
    rintro rfl
    exact goes (Option.some.inj (found.symm.trans here))
  cases effect with
  | nothing | edits => exact here
  | begins call entry => exact (List.getElem?_append_left (List.getElem?_eq_some_iff.mp here).1).trans here
  | turns found advanced =>
    refine elsewhere found ?_
    rintro rfl
    cases advanced
  | resumes found answered =>
    refine elsewhere found ?_
    rintro rfl
    cases answered

theorem inert_of_unfit (config : BusConfig) {front back : List Move} {move : Move} {index : Nat} {message : Message}
    (signals : (begun (front ++ move :: back))[index]? = some (.signal message)) (unfit : ¬message.Sendable)
    (own : ((ofConfig config).run front).Owns index move) :
    (((ofConfig config).run front).move move).bus = ((ofConfig config).run front).bus ∧
      ((ofConfig config).run front).mark move = none := by
  have attended := attended_run config front
  have split : begun (front ++ move :: back) = begun front ++ begun (move :: back) := List.filter_append _ _
  rw [split] at signals
  rcases own with ⟨begins, last⟩ | goes
  · have here : begun (move :: back) = move :: begun back := List.filter_cons_of_pos begins
    rw [← last, attended.length, here, List.getElem?_append_right (Nat.le_refl _), Nat.sub_self] at signals
    obtain rfl := Option.some.inj signals
    exact ⟨rfl, rfl⟩
  · refine inert_of_returned goes fun call found => ?_
    have inside := (List.getElem?_eq_some_iff.mp found).1
    rw [List.getElem?_append_left (attended.length ▸ inside)] at signals
    have serves := attended.serves index _ call signals found
    generalize file _ index = filed at serves
    cases serves with
    | rejected unfit error early => exact ⟨_, rfl⟩
    | sending sendable | sent sendable => exact absurd sendable unfit
    | relaying incoming | relayed incoming => cases incoming

/-- Whatever calls were made, and however their turns and the failures of the line fell, every
message is accounted for once. Once all calls have returned, the counters add up to the messages
taken on and the frames from the line. A message that is turned down leaves everything as it was.
Frames are counted as forwarded that came from the line and were sent on. A sender is told of an
error exactly if its message was turned down or its call counted an error. -/
theorem accounted_once (config : BusConfig) (moves : List Move) :
    let traffic := (ofConfig config).run moves
    let counters := traffic.bus.counters
    let settled := (ofConfig config).settlements moves
    ((∀ call ∈ traffic.calls, ∃ result, call = .returned result) →
      counters.delivered + counters.transmitted + counters.txErrors + counters.expired =
        UInt32.ofNat (moves.countP Move.sends + ((ofConfig config).arrivals moves).length)) ∧
    counters.Tallies settled ∧
    (∀ index, (file settled index).length ≤ 1) ∧
    (∀ (front : List Move) (move : Move) (back : List Move) (index : Nat) (message : Message),
      moves = front ++ move :: back → (begun moves)[index]? = some (.signal message) → ¬message.Sendable →
      ((ofConfig config).run front).Owns index move →
      (((ofConfig config).run front).move move).bus = ((ofConfig config).run front).bus ∧
        ((ofConfig config).run front).mark move = none) ∧
    settled.countP Settlement.forwarded ≤ settled.countP Settlement.transmitted ∧
    ∀ (index : Nat) (message : Message) (result : Except BusError Unit),
      (begun moves)[index]? = some (.signal message) → traffic.calls[index]? = some (.returned result) →
      ((∃ error, result = .error error) ↔ ¬message.Sendable ∨ (ofConfig config).CountsError moves index) := by
  intro traffic counters settled
  have tallies := tallies_run config moves
  have attended := attended_run config moves
  refine ⟨?_, tallies, ?_, ?_, Settlement.forwarded_le settled, ?_⟩
  · intro finished
    have nothing : traffic.load = 0 := by
      rw [load, List.countP_eq_zero]
      intro call member
      obtain ⟨result, rfl⟩ := finished call member
      exact Bool.false_ne_true
    have balance := load_run config moves
    rw [show ((ofConfig config).run moves).load = 0 from nothing, Nat.zero_add] at balance
    rw [← balance, ← Settlement.length_eq]
    simp only [UInt32.ofNat_add]
    rw [← tallies.delivered, ← tallies.transmitted, ← tallies.txErrors, ← tallies.expired]
  · intro index
    by_cases inside : index < traffic.calls.length
    · obtain ⟨move, -, serves⟩ := attended.exists_serves (List.getElem?_eq_getElem inside)
      exact serves.length_le
    · have unfiled : file settled index = [] := attended.file_of_absent (Nat.le_of_not_lt inside)
      rw [unfiled]
      exact Nat.zero_le 1
  · -- a message that is turned down has a call that has returned from the start
    rintro front move back index message rfl signals unfit own
    exact inert_of_unfit config signals unfit own
  · intro index message result signals returned
    rw [countsError_iff]
    exact (attended.serves index _ _ signals returned).exists_error

end Traffic

end Hopline
