import Hopline.Proofs.Codec.ReaderSafety

/-! Reading does not look past what it consumes. A script that succeeds does on any longer input what it
did, as long as it never moves on over bytes unread. -/

namespace Hopline.Codec

/-- Moving on is the one thing that the end of the input can hold up without a fault. -/
def ReadStep.LooksBack : ReadStep → Prop
  | .seek delta => delta ≤ 0
  | _ => True

namespace Reader

/-- The same cursor with more input behind. -/
def extended (reader : Reader) (suffix : Bytes) : Reader := { reader with input := reader.input ++ suffix }

variable {reader : Reader} {α β : Type}

theorem rest_extended (valid : reader.Valid) (suffix : Bytes) : (reader.extended suffix).rest = reader.rest ++ suffix :=
  List.drop_append_of_le_length valid.inside

theorem consumed_extended (valid : reader.Valid) (suffix : Bytes) : (reader.extended suffix).consumed = reader.consumed :=
  List.take_append_of_le_length valid.inside

/-- Where the operation succeeds, it does the same to a cursor with more input behind. -/
def Nearsighted (read : Reader → Reader × Option α) : Prop :=
  ∀ (reader : Reader) (suffix : Bytes), reader.Valid → reader.fault = none → (read reader).1.fault = none →
    read (reader.extended suffix) = ((read reader).1.extended suffix, (read reader).2)

theorem Nearsighted.map {read : Reader → Reader × Option α} (nearsighted : Nearsighted read) (f : ByteOrder → α → β) :
    Nearsighted fun reader => ((read reader).1, (read reader).2.map (f (read reader).1.order)) := by
  intro reader suffix valid early sound
  simp only [nearsighted reader suffix valid early sound]
  rfl

theorem take_of_room (early : reader.fault = none) {width : Nat} (room : width ≤ reader.rest.length) :
    reader.take width = ({ reader.align with position := reader.position + width }, some (reader.rest.take width)) := by
  rw [length_rest] at room
  have enough : ¬ reader.align.remaining < width := Nat.not_lt.mpr room
  simp only [take, enough, ↓reduceIte]
  simp only [align, early, Option.isSome_none, Bool.false_eq_true, ↓reduceIte]
  rfl

theorem nearsighted_take (width : Nat) : Nearsighted (·.take width) := by
  intro reader suffix valid early sound
  dsimp only at sound ⊢
  by_cases room : width ≤ reader.rest.length
  · have more : width ≤ (reader.extended suffix).rest.length := by
      rw [rest_extended valid, List.length_append]
      omega
    have early' : (reader.extended suffix).fault = none := early
    rw [take_of_room early room, take_of_room early' more, rest_extended valid, List.take_append_of_le_length room]
    rfl
  · rw [length_rest] at room
    have ready : reader.align.fault = none := early
    have short : reader.align.remaining < width := Nat.not_le.mp room
    simp [take, ready, short, fail] at sound

theorem nearsighted_read8 : Nearsighted read8 :=
  (nearsighted_take 1).map fun _ bytes => UInt8.ofNat (ofLittleEndian bytes)

theorem nearsighted_read16 : Nearsighted read16 :=
  (nearsighted_take 2).map fun order bytes => UInt16.ofNat (ofLittleEndian (order.arrange bytes))

theorem nearsighted_read32 : Nearsighted read32 :=
  (nearsighted_take 4).map fun order bytes => UInt32.ofNat (ofLittleEndian (order.arrange bytes))

theorem nearsighted_readBytes (width : Nat) : Nearsighted (·.readBytes width) :=
  (nearsighted_take width).map ByteOrder.arrange

/-- The zero byte that ends a text is found where it was found before. -/
theorem nearsighted_readString (size limit : Nat) : Nearsighted (·.readString size limit) := by
  intro reader suffix valid early sound
  dsimp only at sound ⊢
  have sized : 0 < size := by
    by_contra empty
    simp [readString, align, fail, early, Nat.eq_zero_of_not_pos empty] at sound
  obtain ⟨text, rest, found, solid⟩ : ∃ text rest, reader.rest = text ++ 0 :: rest ∧ ∀ byte ∈ text, byte ≠ 0 := by
    have reads := stringRead_readString valid size limit
    generalize reader.readString size limit = result at reads sound
    cases reads with
    | stays stays => exact absurd sound stays.failed
    | whole early reads found solid => exact ⟨_, _, found, solid⟩
    | cutShort cut => exact ⟨_, _, cut.found, cut.solid⟩
  have found' : (reader.extended suffix).rest = text ++ 0 :: (rest ++ suffix) := by
    rw [rest_extended valid, found, List.append_assoc, List.cons_append]
  have early' : (reader.extended suffix).fault = none := early
  rw [readString_of_found early solid found sized, readString_of_found early' solid found' sized]
  dsimp only
  split <;> rfl

theorem nearsighted_readStagedBits (count : Nat) : Nearsighted (·.readStagedBits count) := by
  induction count with
  | zero => exact fun _ _ _ _ _ => rfl
  | succ count ih =>
    intro reader suffix valid early sound
    by_cases aligned : reader.staged = 0
    · have aligned' : (reader.extended suffix).staged = 0 := aligned
      cases fetched : reader.rest with
      | nil => simp [readStagedBits, readStagedBit, aligned, fetched, fail, early] at sound
      | cons byte rest =>
        have fetched' : (reader.extended suffix).rest = byte :: (rest ++ suffix) := by
          rw [rest_extended valid, fetched, List.cons_append]
        have inside := inside_of_rest valid (fetched.trans (List.singleton_append (l := rest)).symm)
        let next : Reader := { reader with stage := byte >>> 1, staged := 7, position := reader.position + 1 }
        have stands : next.Valid := ⟨inside, Nat.lt_succ_self 7⟩
        dsimp only at sound ⊢
        rw [readStagedBits_succ (readStagedBit_of_fetched aligned fetched)] at sound ⊢
        rw [readStagedBits_succ (readStagedBit_of_fetched aligned' fetched')]
        have later := ih next suffix stands early sound
        exact congrArg (fun read => (read.1, read.2.map ((byte &&& 1 == 1) :: ·))) later
    · have waiting : (reader.extended suffix).staged ≠ 0 := aligned
      let next : Reader := { reader with stage := reader.stage >>> 1, staged := reader.staged - 1 }
      have stands : next.Valid := ⟨valid.inside, (Nat.sub_le _ _).trans_lt valid.partly⟩
      dsimp only at sound ⊢
      rw [readStagedBits_succ (readStagedBit_of_waiting aligned)] at sound ⊢
      rw [readStagedBits_succ (readStagedBit_of_waiting waiting)]
      have later := ih next suffix stands early sound
      exact congrArg (fun read => (read.1, read.2.map ((reader.stage &&& 1 == 1) :: ·))) later

theorem nearsighted_readBits (width : Nat) : Nearsighted (·.readBits width) := by
  intro reader suffix valid early sound
  have early' : (reader.extended suffix).fault = none := early
  by_cases allowed : width = 0 ∨ 8 < width
  · simp [readBits, early, allowed, fail] at sound
  · simp only [readBits, early, early', Option.isSome_none, Bool.false_eq_true, ↓reduceIte, allowed] at sound ⊢
    exact (nearsighted_readStagedBits width).map (fun _ bits => UInt8.ofNat (ofBits bits)) reader suffix valid early sound

theorem nearsighted_readBit : Nearsighted readBit := (nearsighted_readBits 1).map fun _ value => value != 0

theorem nearsighted_validate (hook : Validator) : Nearsighted fun reader => (reader.validate hook, (none : Option α)) := by
  intro reader suffix valid early sound
  have early' : (reader.extended suffix).fault = none := early
  simp only [validate_of_sound early, validate_of_sound early', consumed_extended valid] at sound ⊢
  split <;> rfl

theorem nearsighted_seek {delta : Int} (back : delta ≤ 0) :
    Nearsighted fun reader => (reader.seek delta, (none : Option α)) := by
  intro reader suffix valid early _
  have inside := valid.inside
  have short : min (reader.position + delta).toNat reader.input.length = (reader.position + delta).toNat :=
    Nat.min_eq_left (by omega)
  have long : min (reader.position + delta).toNat (reader.input ++ suffix).length = (reader.position + delta).toNat :=
    Nat.min_eq_left (by rw [List.length_append]; omega)
  simp only [seek, align, extended, early, Option.isSome_none, Bool.false_eq_true, ↓reduceIte, short, long]

theorem nearsighted_perform {step : ReadStep} (back : step.LooksBack) : Nearsighted (·.perform step) := by
  cases step with
  | unsigned8 => exact nearsighted_read8.map fun _ value => Value.number value.toNat
  | unsigned16 => exact nearsighted_read16.map fun _ value => Value.number value.toNat
  | unsigned32 => exact nearsighted_read32.map fun _ value => Value.number value.toNat
  | signed8 => exact (nearsighted_read8.map fun _ => UInt8.toInt8).map fun _ value => Value.number value.toInt
  | signed16 => exact (nearsighted_read16.map fun _ => UInt16.toInt16).map fun _ value => Value.number value.toInt
  | signed32 => exact (nearsighted_read32.map fun _ => UInt32.toInt32).map fun _ value => Value.number value.toInt
  | bytes width => exact (nearsighted_readBytes width).map fun _ => Value.bytes
  | string size limit => exact (nearsighted_readString size limit).map fun _ => Value.bytes
  | bit => exact nearsighted_readBit.map fun _ => Value.bit
  | bits width => exact (nearsighted_readBits width).map fun _ value => Value.number value.toNat
  | align | flip | order next => exact fun _ _ _ _ _ => rfl
  | seek delta => exact nearsighted_seek back
  | validate hook => exact nearsighted_validate hook

theorem fault_of_run (valid : reader.Valid) {script : List ReadStep} (sound : (reader.run script).1.fault = none) :
    reader.fault = none := by
  cases known : reader.fault with
  | none => rfl
  | some fault => exact absurd ((stuck_run valid known script).1.symm.trans sound) nofun

/-- A longer input changes nothing in what a script that succeeds leaves and yields, and nothing in the spans
that its hooks are shown. -/
theorem run_extended (valid : reader.Valid) (suffix : Bytes) {script : List ReadStep}
    (back : ∀ step ∈ script, step.LooksBack) (sound : (reader.run script).1.fault = none) :
    (reader.extended suffix).run script = ((reader.run script).1.extended suffix, (reader.run script).2) ∧
      (reader.extended suffix).shown script = reader.shown script := by
  induction script generalizing reader with
  | nil => exact ⟨rfl, rfl⟩
  | cons step rest ih =>
    obtain ⟨here, later⟩ := List.forall_mem_cons.mp back
    have stands := (stands_perform valid step).1
    have middle : (reader.perform step).1.fault = none := fault_of_run stands sound
    have early : reader.fault = none := fault_of_run valid sound
    have same := nearsighted_perform here reader suffix valid early middle
    obtain ⟨runs, shows⟩ := ih stands later sound
    refine ⟨?_, ?_⟩
    · simp only [run, same, runs]
    · cases step with
      | validate hook =>
        have asked : (reader.extended suffix).validatedSpan? = reader.validatedSpan? := by
          simp only [validatedSpan?, consumed_extended valid]
          rfl
        have validated : (reader.extended suffix).validate hook = (reader.validate hook).extended suffix :=
          congrArg Prod.fst same
        simp only [shown, asked, validated]
        exact congrArg _ shows
      | _ => simpa only [shown, same] using shows

/-- What was read before the last steps was read with success, too. -/
theorem sound_of_front (valid : reader.Valid) {front script : List ReadStep} (within : front <+: script)
    (sound : (reader.run script).1.fault = none) : (reader.run front).1.fault = none := by
  obtain ⟨later, rfl⟩ := within
  induction front generalizing reader with
  | nil => exact fault_of_run valid sound
  | cons step rest ih => exact ih (stands_perform valid step).1 sound

/-- What two inputs cannot tell a script apart by. -/
structure Alike (first second : Bytes) (script : List ReadStep) : Prop where
  values : ((ofInput second).run script).2 = ((ofInput first).run script).2
  positions : ∀ front, front <+: script →
    ((ofInput second).run front).1.position = ((ofInput first).run front).1.position
  orders : ∀ front, front <+: script → ((ofInput second).run front).1.order = ((ofInput first).run front).1.order
  shown : (ofInput second).shown script = (ofInput first).shown script
  status : ((ofInput second).run script).1.status = ((ofInput first).run script).1.status
  finish : ((ofInput second).run script).1.finish.2 = ((ofInput first).run script).1.finish.2

/-- A script that succeeds, and that never moves on over bytes unread, does not depend on what follows the
bytes that it consumes. -/
theorem blind_to_suffix (input suffix : Bytes) {script : List ReadStep} (back : ∀ step ∈ script, step.LooksBack)
    (succeeds : ((ofInput input).run script).1.fault = none) :
    ((ofInput (input ++ suffix)).run script).1.fault = none ∧ Alike input (input ++ suffix) script := by
  have valid := valid_ofInput input
  obtain ⟨whole, shows⟩ := run_extended valid suffix back succeeds
  have whole : (ofInput (input ++ suffix)).run script = _ := whole
  have parts : ∀ front, front <+: script →
      (ofInput (input ++ suffix)).run front = (((ofInput input).run front).1.extended suffix, ((ofInput input).run front).2) := by
    intro front within
    exact (run_extended valid suffix (fun step member => back step (within.subset member))
      (sound_of_front valid within succeeds)).1
  refine ⟨by rw [whole]; exact succeeds, ⟨by rw [whole], ?_, ?_, shows, by rw [whole]; rfl, by rw [whole]; rfl⟩⟩
  · intro front within
    rw [parts front within]
    rfl
  · intro front within
    rw [parts front within]
    rfl

/-- Bits that end within a byte, a text, a number against the native order, and a look back at all of it. -/
theorem blind_to_suffix_mixed :
    let input : Bytes := [0x0D, 0x68, 0x69, 0x00, 0x12, 0x34]
    let script : List ReadStep :=
      [.bits 3, .string 8 0, .flip, .unsigned16, .validate fun span => span.length == 6, .seek (-2), .signed8]
    ((ofInput input).run script).1.fault = none ∧
      Alike input (input ++ [0x00, 0xFF]) script ∧
      ((ofInput (input ++ [0x00, 0xFF])).run script).2 =
        [some (.number 5), some (.bytes [0x68, 0x69, 0x00]), none, some (.number 0x1234), none, none, some (.number 0x12)] := by
  intro input script
  have back : ∀ step ∈ script, step.LooksBack := by simp [script, ReadStep.LooksBack]
  have succeeds : ((ofInput input).run script).1.fault = none := by decide
  obtain ⟨-, alike⟩ := blind_to_suffix input [0x00, 0xFF] back succeeds
  exact ⟨succeeds, alike, alike.values.trans (by decide)⟩

end Reader

end Hopline.Codec
