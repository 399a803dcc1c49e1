import Hopline.Proofs.Codec.Standing

/-! A field script over a region and over a sink. The sink shows what the encoding is; a region
takes exactly that if it is long enough, and otherwise the encoding overflows. A sink cannot hold
more than a length can express, which is more than any region has. -/

namespace Hopline.Codec

/-- The longest span in memory: distances within one are signed 64-bit numbers. -/
def longestSpan : Nat := 0x7FFFFFFFFFFFFFFF

/-- The bytes to write lie in memory. -/
def WriteStep.Addressable : WriteStep → Prop
  | .bytes span => span.length ≤ longestSpan
  | _ => True

namespace Writer

variable {writer : Writer} {action : Writer → Writer}

/-- A cursor that has failed has room for less than `width` bytes. -/
def Tight (width : Nat) (writer : Writer) : Prop := writer.fault ≠ none → writer.remaining < width

theorem tight_of_sound (sound : writer.fault = none) (width : Nat) : Tight width writer :=
  fun failed => absurd sound failed

theorem Tight.mono {width wider : Nat} (tight : Tight width writer) (le : width ≤ wider) : Tight wider writer :=
  fun failed => (tight failed).trans_le le

theorem tight_align (sound : writer.fault = none) : Tight 1 writer.align := by
  unfold align
  split
  next => exact tight_of_sound sound 1
  next =>
    dsimp only
    split
    next full => exact fun _ => Nat.lt_one_iff.mpr full
    next room =>
      have stored : (store { writer with stage := 0, staged := 0 } [writer.stage]).fault = none := sound
      exact tight_of_sound stored 1

theorem tight_flush (sound : writer.fault = none) : Tight 1 writer.flush := by
  simp only [flush, sound, Option.isSome_none, Bool.false_eq_true, ↓reduceIte]
  exact tight_align sound

theorem tight_aligned (valid : writer.Valid) (sound : writer.fault = none) {width : Nat} (positive : 1 ≤ width)
    (acts : ∀ ready : Writer, ready.Valid → ready.fault = none → Tight width (action ready)) :
    Tight width (writer.aligned action) := by
  have ready := (keeps_align valid.toPlaced valid.clean).valid
  simp only [aligned, sound, Option.isSome_none, Bool.false_eq_true, ↓reduceIte]
  split
  next => exact (tight_align sound).mono positive
  next aligned => exact acts _ ready (Option.not_isSome_iff_eq_none.mp aligned)

theorem tight_put (valid : writer.Valid) (sound : writer.fault = none) (field : Bytes) :
    Tight (field.length + 1) (writer.put field) := by
  apply tight_aligned valid sound (Nat.le_add_left 1 _)
  intro ready valid sound
  split
  next short => exact fun _ => Nat.lt_succ_of_lt short
  next =>
    have stored : (ready.store field).fault = none := sound
    exact tight_of_sound stored _

theorem tight_writeString (valid : writer.Valid) (sound : writer.fault = none) (text : Bytes) (limit : Nat) :
    Tight 1 (writer.writeString text limit) := by
  apply tight_aligned valid sound le_rfl
  intro ready valid sound
  dsimp only
  split
  next full => exact fun _ => Nat.lt_one_iff.mpr full
  next room =>
    split
    next cut =>
      intro _
      rw [List.length_take] at cut
      have ended : ((textField text limit).take (ready.remaining - 1) ++ [0]).length = ready.remaining := by
        rw [List.length_append, List.length_take, List.length_singleton]
        omega
      show (ready.store _).remaining < 1
      rw [remaining_store valid.toPlaced ended.le, ended, Nat.sub_self]
      exact Nat.one_pos
    next =>
      have stored : (ready.store ((textField text limit).take (ready.remaining - 1) ++ [0])).fault = none := sound
      exact tight_of_sound stored 1

theorem tight_stageBit (sound : writer.fault = none) (bit : Bool) : Tight 1 (writer.stageBit bit) := by
  unfold stageBit
  dsimp only
  split
  · exact tight_align sound
  · exact tight_of_sound sound 1

theorem tight_stageBits (valid : writer.Valid) (sound : writer.fault = none) (bits : List Bool) :
    Tight 1 (writer.stageBits bits) := by
  induction bits generalizing writer with
  | nil => exact tight_of_sound sound 1
  | cons bit rest ih =>
    simp only [stageBits, sound, Option.isSome_none, Bool.false_eq_true, ↓reduceIte]
    cases outcome : (writer.stageBit bit).fault with
    | none => exact ih (keeps_stageBit valid bit).valid outcome
    | some fault =>
      rw [stageBits_of_fault outcome]
      exact tight_stageBit sound bit

theorem tight_writeBits (valid : writer.Valid) (sound : writer.fault = none) (value : UInt8) {width : Nat}
    (least : 1 ≤ width) (most : width ≤ 8) : Tight 1 (writer.writeBits value width) := by
  have allowed : ¬(width = 0 ∨ 8 < width) := by omega
  simp only [writeBits, sound, Option.isSome_none, Bool.false_eq_true, ↓reduceIte, allowed]
  exact tight_stageBits valid sound _

theorem tight_perform (valid : writer.Valid) (sound : writer.fault = none) {step : WriteStep}
    (field : step.IsField) (addressable : step.Addressable) : Tight (longestSpan + 1) (writer.perform step) := by
  have single : 1 ≤ longestSpan := by decide
  have arranged (field : Bytes) (short : field.length ≤ longestSpan) :
      Tight (longestSpan + 1) (writer.put (writer.order.arrange field)) := by
    refine (tight_put valid sound _).mono (Nat.succ_le_succ ?_)
    rw [ByteOrder.length_arrange]
    exact short
  cases step with
  | unsigned8 | signed8 => exact (tight_put valid sound _).mono (Nat.succ_le_succ single)
  | unsigned16 | unsigned32 | signed16 | signed32 =>
    apply arranged
    rw [length_littleEndian]
    decide
  | bytes span => exact arranged span addressable
  | string text limit => exact (tight_writeString valid sound text limit).mono (Nat.le_add_left 1 _)
  | bit value => exact (tight_writeBits valid sound _ le_rfl (by decide)).mono (Nat.le_add_left 1 _)
  | bits value width => exact (tight_writeBits valid sound value field.1 field.2).mono (Nat.le_add_left 1 _)
  | flush => exact (tight_flush sound).mono (Nat.le_add_left 1 _)
  | flip | order next => exact tight_of_sound sound _
  | seek delta | sign hook => exact field.elim

theorem run_of_fault {fault : Fault} (failed : writer.fault = some fault) (script : List WriteStep) :
    writer.run script = { writer with order := (writer.run script).order } := by
  induction script generalizing writer with
  | nil => rfl
  | cons step rest ih =>
    have still := fault_perform failed step
    have kept := perform_of_fault failed step
    calc (writer.perform step).run rest
        = { writer.perform step with order := ((writer.perform step).run rest).order } := ih still
      _ = { writer with order := ((writer.perform step).run rest).order } :=
          congrArg (fun cursor : Writer => { cursor with order := ((writer.perform step).run rest).order }) kept

theorem tight_run (valid : writer.Valid) (sound : writer.fault = none) {script : List WriteStep}
    (fields : ∀ step ∈ script, step.IsField) (addressable : ∀ step ∈ script, step.Addressable) :
    Tight (longestSpan + 1) (writer.run script) := by
  induction script generalizing writer with
  | nil => exact tight_of_sound sound _
  | cons step rest ih =>
    have first := tight_perform valid sound (fields step List.mem_cons_self) (addressable step List.mem_cons_self)
    have fields : ∀ step ∈ rest, step.IsField := fun later member => fields later (List.mem_cons_of_mem _ member)
    have addressable : ∀ step ∈ rest, step.Addressable :=
      fun later member => addressable later (List.mem_cons_of_mem _ member)
    show Tight (longestSpan + 1) ((writer.perform step).run rest)
    cases outcome : (writer.perform step).fault with
    | none => exact ih (keeps_perform valid step).valid outcome fields addressable
    | some fault =>
      intro _
      rw [run_of_fault outcome rest]
      refine first ?_
      rw [outcome]
      exact Option.some_ne_none fault

theorem order_run (writer : Writer) {script : List WriteStep} (fields : ∀ step ∈ script, step.IsField) :
    (writer.run script).order = script.foldl WriteStep.orderAfter writer.order := by
  induction script generalizing writer with
  | nil => rfl
  | cons step rest ih =>
    have after := ih (writer.perform step) fun later member => fields later (List.mem_cons_of_mem _ member)
    rw [order_perform writer (fields step List.mem_cons_self)] at after
    exact after

theorem Writes.position {after : Writer} {added : List Bool} (written : Writes writer added after) :
    after.position = (writer.bits.length + added.length) / 8 := by
  have lengths := length_bits written.valid.toPlaced
  have partly := written.valid.partly
  rw [written.bits, List.length_append] at lengths
  omega

theorem Lays.sound_iff {after : Writer} {added : List Bool} (laid : Lays writer added after) :
    after.fault = none ↔ (writer.bits.length + added.length) / 8 ≤ writer.capacity := by
  cases laid with
  | fits written =>
    refine ⟨fun _ => ?_, fun _ => written.sound⟩
    rw [← written.position, ← written.capacity]
    exact written.valid.inside
  | overflows fault short =>
    rw [fault]
    exact ⟨fun never => (nomatch never), fun fits => absurd short (Nat.not_lt.mpr fits)⟩

/-- The bits of a message behind `count` bits, filled up to a whole byte. -/
def encoding (order : ByteOrder) (count : Nat) (script : List WriteStep) : List Bool :=
  layout order count script ++ padding (count + (layout order count script).length)

theorem lays_finish (valid : writer.Valid) (sound : writer.fault = none) {script : List WriteStep}
    (fields : ∀ step ∈ script, step.IsField) :
    Lays writer (encoding writer.order writer.bits.length script) (writer.run script).flush := by
  apply (lays_run valid sound fields).then
  · intro fault failed
    exact fault_flush failed
  · intro written
    rw [← List.length_append, ← written.bits]
    exact lays_flush written.valid written.sound

theorem tight_finish (valid : writer.Valid) (sound : writer.fault = none) {script : List WriteStep}
    (fields : ∀ step ∈ script, step.IsField) (addressable : ∀ step ∈ script, step.Addressable) :
    Tight (longestSpan + 1) (writer.run script).flush := by
  cases outcome : (writer.run script).fault with
  | none => exact (tight_flush outcome).mono (Nat.le_add_left 1 _)
  | some fault =>
    have still : (writer.run script).flush = writer.run script := by
      simp only [flush, outcome, Option.isSome_some, ↓reduceIte]
    rw [still]
    exact tight_run valid sound fields addressable

theorem contents_of_sink (sink : writer.inRegion = false) : writer.destination.contents = writer.output := by
  unfold inRegion at sink
  unfold output
  cases kind : writer.destination with
  | region bytes =>
    rw [kind] at sink
    cases sink
  | sink emitted => rfl

/-- A sink that fails has been handed more than any region can hold. -/
theorem longestSpan_lt_emitted {script : List WriteStep} (fields : ∀ step ∈ script, step.IsField)
    (addressable : ∀ step ∈ script, step.Addressable) (failed : (ofSink.run script).flush.fault ≠ none) :
    longestSpan < (ofSink.run script).flush.destination.contents.length := by
  have tight := tight_finish valid_ofSink rfl fields addressable failed
  have run := keeps_run valid_ofSink script
  have kept := run.trans (keeps_flush run.valid)
  have inside := kept.valid.inside
  rw [contents_of_sink kept.region, kept.valid.counted]
  unfold remaining at tight
  rw [show _ = maxLength from kept.capacity] at tight inside
  unfold maxLength at tight inside
  unfold longestSpan at tight ⊢
  omega

theorem sound_before {front script : List WriteStep} (within : front <+: script)
    (sound : (writer.run script).flush.fault = none) : (writer.run front).fault = none := by
  obtain ⟨back, rfl⟩ := within
  cases failed : (writer.run front).fault with
  | none => rfl
  | some fault =>
    have later : (writer.run (front ++ back)).fault = some fault := by
      rw [run, List.foldl_append]
      exact fault_run failed back
    rw [fault_flush later] at sound
    cases sound

theorem Writes.emitted {after : Writer} {added : List Bool} (sent : Writes ofSink added after) :
    after.destination.contents = after.output ∧ after.destination.contents.length = after.position := by
  have contents := contents_of_sink (sent.region.trans rfl)
  exact ⟨contents, contents ▸ sent.valid.counted⟩

theorem position_eq {region : Bytes} {first second : Writer} {bits : List Bool}
    (written : Writes (ofRegion region) bits first) (sent : Writes ofSink bits second) :
    first.position = second.position := written.position.trans sent.position.symm

/-- A region that is long enough agrees with a sink after every step of a field script, and holds in
the end what the sink was handed, with the rest of it untouched. One that is too short overflows. -/
theorem region_follows_sink (script : List WriteStep) (region : Bytes) (fields : ∀ step ∈ script, step.IsField)
    (addressable : ∀ step ∈ script, step.Addressable) (inMemory : region.length ≤ longestSpan) :
    let sink := ofSink.run script
    let writer := (ofRegion region).run script
    let emitted := sink.finish.1.destination.contents
    (emitted.length ≤ region.length →
      (∀ front, front <+: script →
        ((ofRegion region).run front).position = (ofSink.run front).position ∧
        ((ofRegion region).run front).order = (ofSink.run front).order ∧
        ((ofRegion region).run front).fault = none ∧ (ofSink.run front).fault = none) ∧
      sink.finish.2 = .ok emitted.length ∧ writer.finish.2 = .ok emitted.length ∧
      writer.finish.1.destination.contents = emitted ++ region.drop emitted.length) ∧
    (region.length < emitted.length → writer.finish.2 = .error .bufferOverflow) := by
  intro sink writer emitted
  have sinkLaid : Lays ofSink (encoding .native 0 script) sink.flush := lays_finish valid_ofSink rfl fields
  have laid : Lays (ofRegion region) (encoding .native 0 script) writer.flush :=
    lays_finish (valid_ofRegion region) rfl fields
  constructor
  · intro fits
    -- a sink that fails has been handed more than the region holds
    have sinkSound : sink.flush.fault = none := by
      by_contra failed
      have many := longestSpan_lt_emitted fields addressable failed
      exact Nat.lt_irrefl _ (many.trans_le (fits.trans inMemory))
    have sent := sinkLaid.writes sinkSound
    obtain ⟨contents, size⟩ : emitted = sink.flush.output ∧ emitted.length = sink.flush.position := sent.emitted
    have sound : writer.flush.fault = none := by
      rw [laid.sound_iff]
      exact (sent.position.symm.trans size.symm).trans_le fits
    have written := laid.writes sound
    have position := position_eq written sent
    refine ⟨?_, outcome_eq_ok.mpr ⟨sinkSound, size.symm⟩, outcome_eq_ok.mpr ⟨sound, position.trans size.symm⟩, ?_⟩
    · intro front within
      have early : ∀ step ∈ front, step.IsField := fun step member => fields step (within.subset member)
      have here := sound_before within sound
      have there := sound_before within sinkSound
      have written := (lays_run (valid_ofRegion region) rfl early).writes here
      have sent := (lays_run valid_ofSink rfl early).writes there
      have order := (order_run (ofRegion region) early).trans (order_run ofSink early).symm
      exact ⟨position_eq written sent, order, here, there⟩
    · have aligned : sink.flush.staged = 0 := staged_flush (sound_before List.prefix_rfl sinkSound)
      have same : writer.flush.bits = bitString sink.flush.output := by
        rw [← bits_of_aligned aligned, written.bits, sent.bits]
        rfl
      obtain ⟨-, output⟩ := output_of_bits written.valid same
      rw [size, ← position, contents, ← output]
      exact written.contents
  · intro crowded
    cases laid with
    | overflows fault short => exact outcome_eq_error.mpr fault
    | fits written =>
      have inside : writer.flush.position ≤ region.length := written.valid.inside.trans_eq written.capacity
      have least : longestSpan ≤ maxLength := by decide
      have sinkSound : sink.flush.fault = none := by
        rw [sinkLaid.sound_iff]
        exact written.position.symm.trans_le (inside.trans (inMemory.trans least))
      have sent := sinkLaid.writes sinkSound
      have size : emitted.length = sink.flush.position := sent.emitted.2
      rw [size, ← position_eq written sent] at crowded
      exact absurd inside (Nat.not_le.mpr crowded)

/-- Six bytes, the last of them filled up by the closing flush: a region of seven has one left over,
and a region of five overflows. -/
theorem region_follows_sink_mixed :
    let script : List WriteStep :=
      [.bits 5 3, .flip, .unsigned16 0x1234, .string [0x41] 0, .order .little, .bytes [], .bit true]
    let emitted := (ofSink.run script).finish.1.destination.contents
    emitted = [5, 0x12, 0x34, 0x41, 0, 1] ∧
      ((ofRegion [9, 9, 9, 9, 9, 9, 9]).run script).finish.1.destination.contents = emitted ++ [9] ∧
      ((ofRegion [9, 9, 9, 9, 9]).run script).finish.2 = .error .bufferOverflow := by
  intro script emitted
  have fields : ∀ step ∈ script, step.IsField := by simp [script, WriteStep.IsField]
  have addressable : ∀ step ∈ script, step.Addressable := by simp [script, WriteStep.Addressable]
  have known : emitted = [5, 0x12, 0x34, 0x41, 0, 1] := by decide +kernel
  refine ⟨known, ?_, ?_⟩
  · have follows := (region_follows_sink script [9, 9, 9, 9, 9, 9, 9] fields addressable (by decide)).1
    have fits : emitted.length ≤ 7 := by rw [known]; decide
    refine (follows fits).2.2.2.trans ?_
    show emitted ++ _ = emitted ++ [9]
    rw [known]
    rfl
  · apply (region_follows_sink script [9, 9, 9, 9, 9] fields addressable (by decide)).2
    show 5 < emitted.length
    rw [known]
    decide

end Writer

end Hopline.Codec
