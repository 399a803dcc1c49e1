import Hopline.Codec.Script
import Hopline.Proofs.Codec.Reader

/-! Every operation of a decoding cursor leaves it within its input, also one that fails. One that
fails leaves it where it was and yields nothing, but for a string that its destination cuts short. -/

namespace Hopline.Codec.Reader

/-- The cursor has failed where it stands. -/
structure Stays (before after : Reader) : Prop where
  valid : after.Valid
  input : after.input = before.input
  position : after.position = before.position
  failed : after.fault ≠ none
  first : ∀ fault, before.fault = some fault → after.fault = some fault
  other : before.fault = none → after.fault ≠ some .bufferOverflow

/-- The two ways in which most operations end. -/
inductive Ends {α : Type} (before : Reader) : Reader × Option α → Prop
  | moves {after : Reader} (value : Option α) (valid : after.Valid) (input : after.input = before.input)
      (early : before.fault = none) (sound : after.fault = none) : Ends before (after, value)
  | stays {after : Reader} (stays : Stays before after) : Ends before (after, none)

/-- The text before a zero byte was too long for a destination of `size` bytes, and the cursor stands behind
the end of the field. -/
structure CutShort (before after : Reader) (size limit : Nat) (text rest : Bytes) : Prop where
  valid : after.Valid
  input : after.input = before.input
  early : before.fault = none
  fault : after.fault = some .bufferOverflow
  found : before.rest = text ++ 0 :: rest
  solid : ∀ byte ∈ text, byte ≠ 0
  sized : 0 < size
  small : size ≤ limited text.length limit
  position : after.position = before.position + text.length + 1

/-- The ways in which reading a string into a destination of `size` bytes can end. -/
inductive StringRead (before : Reader) (size limit : Nat) : Reader × Option Bytes → Prop
  | stays {after : Reader} (stays : Stays before after) : StringRead before size limit (after, none)
  | whole {after : Reader} {text rest : Bytes} (early : before.fault = none)
      (reads : Reads before (lowBits before.stage before.staged ++ bitString (text ++ [0])) after)
      (found : before.rest = text ++ 0 :: rest) (solid : ∀ byte ∈ text, byte ≠ 0) :
      StringRead before size limit (after, some (text.take (limited text.length limit) ++ [0]))
  | cutShort {after : Reader} {text rest : Bytes} (cut : CutShort before after size limit text rest) :
      StringRead before size limit (after, some (text.take (size - 1) ++ [0]))

variable {reader : Reader} {α β : Type}

theorem Ends.map {read : Reader × Option α} (ends : Ends reader read) (f : α → β) :
    Ends reader (read.1, read.2.map f) := by
  cases ends with
  | moves value valid input early sound => exact .moves _ valid input early sound
  | stays stays => exact .stays stays

theorem stays_of_failed (valid : reader.Valid) (failed : reader.fault ≠ none) : Stays reader reader :=
  ⟨valid, rfl, rfl, failed, fun _ same => same, fun sound => absurd sound failed⟩

theorem stays_fail (valid : reader.Valid) (fault : Fault) (other : fault ≠ .bufferOverflow) :
    Stays reader (reader.fail fault) := by
  refine ⟨⟨valid.inside, valid.partly⟩, rfl, rfl, ?_, ?_, ?_⟩
  · cases known : reader.fault <;> simp [fail, known]
  · intro first same
    simp [fail, same]
  · intro sound
    simpa [fail, sound] using other

theorem valid_align (valid : reader.Valid) : reader.align.Valid := ⟨valid.inside, Nat.zero_lt_succ 7⟩

theorem Stays.of_align {after : Reader} (stays : Stays reader.align after) : Stays reader after :=
  ⟨stays.valid, stays.input, stays.position, stays.failed, stays.first, stays.other⟩

/-- Operations that begin on a byte boundary drop unread bits even where they are not carried out. -/
theorem stays_align (valid : reader.Valid) (failed : reader.align.fault.isSome = true) : Stays reader reader.align :=
  (stays_of_failed (valid_align valid) (Option.isSome_iff_ne_none.mp failed)).of_align

theorem sound_of_align (sound : ¬reader.align.fault.isSome = true) : reader.fault = none :=
  Option.not_isSome_iff_eq_none.mp sound

theorem ends_take (valid : reader.Valid) (width : Nat) : Ends reader (reader.take width) := by
  have ready := valid_align valid
  unfold take
  dsimp only
  split
  next failed => exact .stays (stays_align valid failed)
  next sound =>
    split
    next short => exact .stays (stays_fail ready .bufferOverrun (by simp)).of_align
    next room =>
      have inside : reader.position + width ≤ reader.input.length := by
        have := valid.inside
        simp only [remaining, capacity, align] at room
        omega
      exact .moves _ ⟨inside, ready.partly⟩ rfl (sound_of_align sound) (sound_of_align sound)

theorem ends_validate (valid : reader.Valid) (hook : Validator) :
    Ends reader (reader.validate hook, (none : Option α)) := by
  have ready := valid_align valid
  unfold validate
  dsimp only
  split
  next failed => exact .stays (stays_align valid failed)
  next sound =>
    split
    next accepted => exact .moves _ ready rfl (sound_of_align sound) (sound_of_align sound)
    next refused => exact .stays (stays_fail ready .invalidData (by simp)).of_align

theorem ends_seek (valid : reader.Valid) (delta : Int) : Ends reader (reader.seek delta, (none : Option α)) := by
  unfold seek
  dsimp only
  split
  next failed => exact .stays (stays_align valid failed)
  next sound =>
    exact .moves _ ⟨Nat.min_le_right _ _, (valid_align valid).partly⟩ rfl (sound_of_align sound) (sound_of_align sound)

theorem ends_of_same {after : Reader} (valid : after.Valid) (input : after.input = reader.input)
    (position : after.position = reader.position) (fault : after.fault = reader.fault) :
    Ends reader (after, (none : Option α)) := by
  cases known : reader.fault with
  | none => exact .moves _ valid input known (fault.trans known)
  | some first =>
    refine .stays ⟨valid, input, position, ?_, ?_, ?_⟩
    · simp [fault, known]
    · exact fun _ same => fault.trans same
    · exact fun sound => absurd (known.symm.trans sound) nofun

theorem exists_terminated {bytes : Bytes} (ended : (bytes.takeWhile (· != 0)).length ≠ bytes.length) :
    ∃ rest, bytes = bytes.takeWhile (· != 0) ++ 0 :: rest := by
  have split := List.takeWhile_append_dropWhile (p := (· != 0)) (l := bytes)
  cases tail : bytes.dropWhile (· != 0) with
  | nil =>
    rw [tail, List.append_nil] at split
    exact absurd (congrArg List.length split) ended
  | cons byte rest =>
    have zero : byte = 0 := by
      have stopped := List.head_dropWhile_not (· != 0) (l := bytes) (by simp [tail])
      simpa [tail] using stopped
    rw [tail, zero] at split
    exact ⟨rest, split.symm⟩

theorem inside_of_rest (valid : reader.Valid) {field rest : Bytes} (found : reader.rest = field ++ rest) :
    reader.position + field.length ≤ reader.input.length := by
  have inside := valid.inside
  have lengths := congrArg List.length found
  simp only [length_rest, remaining, capacity, List.length_append] at lengths
  omega

/-- A destination that is too small is filled to its end, and the cursor passes the whole field. -/
theorem cutShort_readString (valid : reader.Valid) (early : reader.fault = none) {text rest : Bytes} {size limit : Nat}
    (solid : ∀ byte ∈ text, byte ≠ 0) (found : reader.rest = text ++ 0 :: rest) (sized : 0 < size)
    (small : size ≤ limited text.length limit) :
    ∃ after, reader.readString size limit = (after, some (text.take (size - 1) ++ [0])) ∧
      CutShort reader after size limit text rest := by
  have bound := limited_le text.length limit
  have inside : reader.position + text.length + 1 ≤ reader.input.length := by
    have whole : reader.rest = (text ++ [0]) ++ rest := by rw [found, List.append_assoc, List.singleton_append]
    have := inside_of_rest valid whole
    rwa [List.length_append, List.length_singleton, ← Nat.add_assoc] at this
  have kept : (text.take (limited text.length limit)).take (size - 1) = text.take (size - 1) := by
    rw [List.take_take, Nat.min_eq_left (by omega)]
  have cut : (text.take (size - 1)).length < (text.take (limited text.length limit)).length := by
    rw [List.length_take, List.length_take]
    omega
  let passed := { reader.align with position := reader.position + text.length + 1 }
  refine ⟨passed.fail .bufferOverflow, ?_, ⟨⟨inside, (valid_align valid).partly⟩, rfl, early, ?_, found, solid, sized,
    small, rfl⟩⟩
  · rw [readString_of_found early solid found sized]
    simp only [kept, cut, ↓reduceIte]
    rfl
  · simp [passed, fail, align, early]

theorem stringRead_readString (valid : reader.Valid) (size limit : Nat) :
    StringRead reader size limit (reader.readString size limit) := by
  have ready := valid_align valid
  by_cases failed : reader.align.fault.isSome = true
  · simp only [readString, failed, ↓reduceIte]
    exact .stays (stays_align valid failed)
  have early := sound_of_align failed
  by_cases sized : size = 0
  · simp only [readString, failed, ↓reduceIte, sized]
    exact .stays (stays_fail ready .invalidArgument (by simp)).of_align
  by_cases ended : (reader.rest.takeWhile (· != 0)).length = reader.rest.length
  · have ended : (reader.align.rest.takeWhile (· != 0)).length = reader.align.rest.length := ended
    simp only [readString, failed, ↓reduceIte, sized, ended]
    exact .stays (stays_fail ready .bufferOverrun (by simp)).of_align
  obtain ⟨rest, found⟩ := exists_terminated ended
  have solid : ∀ byte ∈ reader.rest.takeWhile (· != 0), byte ≠ 0 := fun byte member => by
    simpa using List.all_eq_true.mp List.all_takeWhile byte member
  generalize reader.rest.takeWhile (· != 0) = text at found solid
  by_cases small : size ≤ limited text.length limit
  · obtain ⟨after, read, cut⟩ :=
      cutShort_readString valid early solid found (Nat.pos_of_ne_zero sized) small
    rw [read]
    exact .cutShort cut
  · have room : (text.take (limited text.length limit)).length < size := by
      rw [List.length_take_of_le (limited_le _ _)]
      exact Nat.lt_of_not_le small
    obtain ⟨after, read, reads⟩ := readString_of_rest valid early solid found room
    rw [read]
    exact .whole early reads found solid

theorem readStagedBit_of_waiting (waiting : reader.staged ≠ 0) :
    reader.readStagedBit =
      ({ reader with stage := reader.stage >>> 1, staged := reader.staged - 1 }, some (reader.stage &&& 1 == 1)) :=
  if_neg waiting

theorem readStagedBit_of_fetched (aligned : reader.staged = 0) {byte : UInt8} {rest : Bytes}
    (fetched : reader.rest = byte :: rest) :
    reader.readStagedBit =
      ({ reader with stage := byte >>> 1, staged := 7, position := reader.position + 1 },
        some (byte &&& 1 == 1)) := by
  simp only [readStagedBit, aligned, fetched, ↓reduceIte]

theorem readStagedBits_succ {next : Reader} {bit : Bool} (first : reader.readStagedBit = (next, some bit))
    (count : Nat) :
    reader.readStagedBits (count + 1) =
      ((next.readStagedBits count).1, (next.readStagedBits count).2.map (bit :: ·)) := by
  simp only [readStagedBits, first]

/-- Bits that are left of the fetched byte are read without another one. -/
theorem exists_readStagedBits (valid : reader.Valid) {count : Nat} (enough : count ≤ reader.staged) :
    ∃ (after : Reader) (bits : List Bool), reader.readStagedBits count = (after, some bits) ∧ after.Valid ∧
      after.input = reader.input ∧ after.fault = reader.fault := by
  induction count generalizing reader with
  | zero => exact ⟨reader, [], rfl, valid, rfl, rfl⟩
  | succ count ih =>
    have partly := valid.partly
    let next : Reader := { reader with stage := reader.stage >>> 1, staged := reader.staged - 1 }
    have stands : next.Valid := ⟨valid.inside, by dsimp only [next]; omega⟩
    obtain ⟨after, bits, read, valid', input, fault⟩ := ih stands (by dsimp only [next]; omega)
    have waiting : reader.staged ≠ 0 := by omega
    refine ⟨after, (reader.stage &&& 1 == 1) :: bits, ?_, valid', input, fault⟩
    rw [readStagedBits_succ (readStagedBit_of_waiting waiting), read]
    rfl

/-- A bit-field takes what is left of the last byte and then at most one more, so that one that fails has not
moved the cursor. -/
theorem ends_readStagedBits (valid : reader.Valid) (early : reader.fault = none) {count : Nat} (narrow : count ≤ 8) :
    Ends reader (reader.readStagedBits count) := by
  induction count generalizing reader with
  | zero => exact .moves _ valid rfl early early
  | succ count ih =>
    have partly := valid.partly
    by_cases aligned : reader.staged = 0
    · cases fetched : reader.rest with
      | nil =>
        simp only [readStagedBits, readStagedBit, aligned, fetched, ↓reduceIte]
        exact .stays (stays_fail valid .bufferOverrun (by simp))
      | cons byte rest =>
        have inside : reader.position + 1 ≤ reader.input.length :=
          inside_of_rest valid (fetched.trans (List.singleton_append (l := rest)).symm)
        let next : Reader := { reader with stage := byte >>> 1, staged := 7, position := reader.position + 1 }
        have stands : next.Valid := ⟨inside, Nat.lt_succ_self 7⟩
        obtain ⟨after, bits, read, valid', input, fault⟩ :=
          exists_readStagedBits stands (show count ≤ 7 by omega)
        rw [readStagedBits_succ (readStagedBit_of_fetched aligned fetched), read]
        exact .moves _ valid' input early (fault.trans early)
    · let next : Reader := { reader with stage := reader.stage >>> 1, staged := reader.staged - 1 }
      have stands : next.Valid := ⟨valid.inside, by dsimp only [next]; omega⟩
      have later := ih stands early (by omega)
      rw [readStagedBits_succ (readStagedBit_of_waiting aligned)]
      generalize read : next.readStagedBits count = result at later
      cases later with
      | moves value valid' input _ sound => exact .moves _ valid' input early sound
      | stays stays =>
        exact .stays ⟨stays.valid, stays.input, stays.position, stays.failed, stays.first, stays.other⟩

theorem ends_readBits (valid : reader.Valid) (width : Nat) : Ends reader (reader.readBits width) := by
  unfold readBits
  split
  next failed => exact .stays (stays_of_failed valid (Option.isSome_iff_ne_none.mp failed))
  next sound =>
    split
    next => exact .stays (stays_fail valid .invalidArgument (by simp))
    next allowed =>
      exact (ends_readStagedBits valid (Option.not_isSome_iff_eq_none.mp sound) (by omega)).map _

theorem ends_perform (valid : reader.Valid) (step : ReadStep) :
    Ends reader (reader.perform step) ∨ ∃ (size limit : Nat) (after : Reader) (text rest : Bytes),
      step = .string size limit ∧ CutShort reader after size limit text rest ∧
      reader.perform step = (after, some (.bytes (text.take (size - 1) ++ [0]))) := by
  cases step with
  | unsigned8 => exact .inl (((ends_take valid 1).map _).map _)
  | unsigned16 => exact .inl (((ends_take valid 2).map _).map _)
  | unsigned32 => exact .inl (((ends_take valid 4).map _).map _)
  | signed8 => exact .inl ((((ends_take valid 1).map _).map _).map _)
  | signed16 => exact .inl ((((ends_take valid 2).map _).map _).map _)
  | signed32 => exact .inl ((((ends_take valid 4).map _).map _).map _)
  | bytes width => exact .inl (((ends_take valid width).map _).map _)
  | bit => exact .inl (((ends_readBits valid 1).map _).map _)
  | bits width => exact .inl ((ends_readBits valid width).map _)
  | align => exact .inl (ends_of_same (valid_align valid) rfl rfl rfl)
  | seek delta => exact .inl (ends_seek valid delta)
  | flip | order next => exact .inl (ends_of_same ⟨valid.inside, valid.partly⟩ rfl rfl rfl)
  | validate hook => exact .inl (ends_validate valid hook)
  | string size limit =>
    have reads := stringRead_readString valid size limit
    rw [perform]
    generalize reader.readString size limit = result at reads
    cases reads with
    | stays stays => exact .inl (.stays stays)
    | whole early reads => exact .inl (.moves _ reads.valid reads.input early reads.sound)
    | cutShort cut => exact .inr ⟨size, limit, _, _, _, rfl, cut, rfl⟩

theorem stands_perform (valid : reader.Valid) (step : ReadStep) :
    (reader.perform step).1.Valid ∧ (reader.perform step).1.input = reader.input := by
  rcases ends_perform valid step with ends | ⟨size, limit, after, text, rest, rfl, cut, same⟩
  · generalize reader.perform step = result at ends
    cases ends with
    | moves value valid' input => exact ⟨valid', input⟩
    | stays stays => exact ⟨stays.valid, stays.input⟩
  · rw [same]
    exact ⟨cut.valid, cut.input⟩

theorem stands_run (valid : reader.Valid) (script : List ReadStep) :
    (reader.run script).1.Valid ∧ (reader.run script).1.input = reader.input := by
  induction script generalizing reader with
  | nil => exact ⟨valid, rfl⟩
  | cons step rest ih =>
    obtain ⟨valid', input⟩ := stands_perform valid step
    obtain ⟨valid'', input'⟩ := ih valid'
    exact ⟨valid'', input'.trans input⟩

end Hopline.Codec.Reader
