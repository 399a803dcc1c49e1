import Hopline.Codec.Writer
import Hopline.Proofs.Bits

/-! What the operations of an encoding cursor add to the bits written so far. An
operation either adds all of its bits or meets an overflow, and it meets one exactly
where the bytes to commit are more than the destination holds. -/

namespace Hopline.Codec.Writer

/-- Everything that has been committed. -/
def output (writer : Writer) : Bytes :=
  match writer.destination with
  | .region bytes => bytes.take writer.position
  | .sink emitted => emitted

/-- The part of a region that lies ahead of the cursor. -/
def ahead (writer : Writer) : Bytes :=
  match writer.destination with
  | .region bytes => bytes.drop writer.position
  | .sink _ => []

def inRegion (writer : Writer) : Bool :=
  match writer.destination with
  | .region _ => true
  | .sink _ => false

/-- Everything written, the bits that wait for their byte included. -/
def bits (writer : Writer) : List Bool :=
  bitString writer.output ++ lowBits writer.stage writer.staged

/-- The cursor stands within its destination, just behind what it has committed. -/
structure Placed (writer : Writer) : Prop where
  inside : writer.position ≤ writer.capacity
  counted : writer.output.length = writer.position

/-- What holds between any two operations: less than one byte waits, and nothing is
staged above the bits that wait. -/
structure Valid (writer : Writer) : Prop extends Placed writer where
  partly : writer.staged < 8
  clean : writer.stage.toNat < 2 ^ writer.staged

theorem contents_eq (writer : Writer) :
    writer.destination.contents = writer.output ++ writer.ahead := by
  unfold output ahead Destination.contents
  cases writer.destination with
  | region bytes => exact (List.take_append_drop _ _).symm
  | sink emitted => exact (List.append_nil _).symm

theorem valid_ofRegion (bytes : Bytes) : (ofRegion bytes).Valid :=
  ⟨⟨Nat.zero_le _, by simp [ofRegion, ofDestination, output]⟩, Nat.zero_lt_succ 7, Nat.one_pos⟩

theorem valid_ofSink : ofSink.Valid := ⟨⟨Nat.zero_le _, rfl⟩, Nat.zero_lt_succ 7, Nat.one_pos⟩

variable {writer : Writer}

theorem length_bits (placed : writer.Placed) :
    writer.bits.length = 8 * writer.position + writer.staged := by
  rw [bits, List.length_append, length_bitString, length_lowBits, placed.counted]

theorem bits_of_aligned (aligned : writer.staged = 0) : writer.bits = bitString writer.output := by
  rw [bits, aligned]
  exact List.append_nil _

/-- A cursor that has written whole bytes has committed them all. -/
theorem output_of_bits (valid : writer.Valid) {bytes : Bytes} (whole : writer.bits = bitString bytes) :
    writer.staged = 0 ∧ writer.output = bytes := by
  have lengths := length_bits valid.toPlaced
  rw [whole, length_bitString] at lengths
  have partly := valid.partly
  have aligned : writer.staged = 0 := by omega
  exact ⟨aligned, eq_of_bitString_eq ((bits_of_aligned aligned).symm.trans whole)⟩

/-- An operation that succeeded has added `added`, and where it wrote into a region,
what lies ahead of it is what was there before. -/
structure Writes (before : Writer) (added : List Bool) (after : Writer) : Prop where
  valid : after.Valid
  sound : after.fault = none
  bits : after.bits = before.bits ++ added
  capacity : after.capacity = before.capacity
  region : after.inRegion = before.inRegion
  moved : ∃ count, after.position = before.position + count ∧ after.ahead = before.ahead.drop count

/-- The two ways in which adding `added` can end. -/
inductive Lays (before : Writer) (added : List Bool) (after : Writer) : Prop
  | fits (written : Writes before added after)
  | overflows (fault : after.fault = some .bufferOverflow)
      (short : before.capacity < (before.bits.length + added.length) / 8)

theorem Writes.refl (valid : writer.Valid) (sound : writer.fault = none) : Writes writer [] writer :=
  ⟨valid, sound, (List.append_nil _).symm, rfl, rfl, 0, rfl, rfl⟩

theorem Writes.trans {middle after : Writer} {first second : List Bool}
    (earlier : Writes writer first middle) (later : Writes middle second after) :
    Writes writer (first ++ second) after := by
  obtain ⟨passed, position, ahead⟩ := earlier.moved
  obtain ⟨further, position', ahead'⟩ := later.moved
  refine ⟨later.valid, later.sound, ?_, later.capacity.trans earlier.capacity,
    later.region.trans earlier.region, passed + further, ?_, ?_⟩
  · rw [later.bits, earlier.bits, List.append_assoc]
  · rw [position', position, Nat.add_assoc]
  · rw [ahead', ahead, List.drop_drop]

theorem Writes.ahead_ofRegion {after : Writer} {added : List Bool} {region : Bytes}
    (written : Writes (ofRegion region) added after) : after.ahead = region.drop after.position := by
  obtain ⟨count, position, ahead⟩ := written.moved
  have passed : after.position = count := position.trans (Nat.zero_add _)
  rw [ahead, passed]
  rfl

theorem Writes.contents {after : Writer} {added : List Bool} {region : Bytes}
    (written : Writes (ofRegion region) added after) :
    after.destination.contents = after.output ++ region.drop after.position := by
  rw [contents_eq, written.ahead_ofRegion]

theorem Writes.take_contents {after : Writer} {added : List Bool} {region : Bytes}
    (written : Writes (ofRegion region) added after) :
    after.destination.contents.take after.position = after.output := by
  rw [written.contents, ← written.valid.counted, List.take_left]

theorem Lays.then {middle after : Writer} {first second : List Bool}
    (earlier : Lays writer first middle)
    (stuck : ∀ fault, middle.fault = some fault → after.fault = some fault)
    (later : Writes writer first middle → Lays middle second after) :
    Lays writer (first ++ second) after := by
  cases earlier with
  | overflows fault short =>
    refine .overflows (stuck _ fault) (short.trans_le (Nat.div_le_div_right ?_))
    rw [List.length_append]
    omega
  | fits written =>
    cases later written with
    | fits rest => exact .fits (written.trans rest)
    | overflows fault short =>
      refine .overflows fault ?_
      rw [written.capacity, written.bits, List.length_append] at short
      rwa [List.length_append, ← Nat.add_assoc]

theorem Lays.writes {after : Writer} {added : List Bool} (laid : Lays writer added after)
    (sound : after.fault = none) : Writes writer added after := by
  cases laid with
  | fits written => exact written
  | overflows fault _ => rw [sound] at fault; cases fault

theorem placed_store (placed : writer.Placed) {field : Bytes} (room : field.length ≤ writer.remaining) :
    (writer.store field).Placed ∧ (writer.store field).output = writer.output ++ field := by
  have inside := placed.inside
  have counted := placed.counted
  unfold remaining at room
  cases kind : writer.destination with
  | region bytes =>
    simp only [capacity, kind, Destination.capacity] at inside room
    have front : (bytes.take writer.position).length = writer.position := by
      rw [List.length_take]; omega
    have output : (writer.store field).output = writer.output ++ field := by
      simp only [Writer.output, store, kind, Destination.place]
      rw [List.append_assoc, List.take_append, front, List.take_of_length_le (by omega),
        Nat.add_sub_cancel_left, List.take_left]
    refine ⟨⟨?_, ?_⟩, output⟩
    · simp only [store, capacity, kind, Destination.place, Destination.capacity, List.length_append,
        List.length_drop, front]
      omega
    · rw [output, List.length_append, counted]
      rfl
  | sink emitted =>
    have output : (writer.store field).output = writer.output ++ field := by
      simp only [Writer.output, store, kind, Destination.place]
    refine ⟨⟨?_, ?_⟩, output⟩
    · simp only [store, capacity, kind, Destination.place, Destination.capacity] at inside room ⊢
      omega
    · rw [output, List.length_append, counted]
      rfl

theorem capacity_store (placed : writer.Placed) {field : Bytes} (room : field.length ≤ writer.remaining) :
    (writer.store field).capacity = writer.capacity := by
  have inside := placed.inside
  unfold remaining at room
  cases kind : writer.destination with
  | region bytes =>
    simp only [capacity, kind, Destination.capacity] at inside room
    simp only [capacity, store, kind, Destination.place, Destination.capacity, List.length_append,
      List.length_take, List.length_drop]
    omega
  | sink emitted => simp only [capacity, store, kind, Destination.place, Destination.capacity]

theorem ahead_store (placed : writer.Placed) (field : Bytes) :
    (writer.store field).ahead = writer.ahead.drop field.length := by
  have inside := placed.inside
  cases kind : writer.destination with
  | region bytes =>
    simp only [capacity, kind, Destination.capacity] at inside
    have front : (bytes.take writer.position ++ field).length = writer.position + field.length := by
      rw [List.length_append, List.length_take]; omega
    simp only [ahead, store, kind, Destination.place]
    rw [← front, List.drop_left, List.drop_drop, front]
  | sink emitted => simp only [ahead, store, kind, Destination.place, List.drop_nil]

theorem inRegion_store (writer : Writer) (field : Bytes) : (writer.store field).inRegion = writer.inRegion := by
  cases kind : writer.destination <;> simp only [inRegion, store, kind, Destination.place]

theorem writes_store (valid : writer.Valid) (sound : writer.fault = none) (aligned : writer.staged = 0)
    {field : Bytes} (room : field.length ≤ writer.remaining) :
    Writes writer (bitString field) (writer.store field) := by
  obtain ⟨placed, output⟩ := placed_store valid.toPlaced room
  have staged : (writer.store field).staged = 0 := aligned
  refine ⟨⟨placed, valid.partly, valid.clean⟩, sound, ?_, capacity_store valid.toPlaced room,
    inRegion_store writer field, field.length, rfl, ahead_store valid.toPlaced field⟩
  rw [bits_of_aligned staged, bits_of_aligned aligned, output, bitString_append]

theorem order_align (writer : Writer) : writer.align.order = writer.order := by
  unfold align
  dsimp only
  split
  · rfl
  · split <;> rfl

theorem order_aligned {action : Writer → Writer} (kept : ∀ ready, (action ready).order = ready.order)
    (writer : Writer) : (writer.aligned action).order = writer.order := by
  unfold aligned
  dsimp only
  split
  · rfl
  · split
    · exact order_align writer
    · exact (kept _).trans (order_align writer)

theorem staged_align (writer : Writer) : writer.align.staged = 0 := by
  unfold align
  split
  next aligned => exact aligned
  next => dsimp only; split <;> rfl

/-- Aligning fills the last byte up with zero bits. The staging byte may be full,
as it is when a bit-field has just reached the end of its byte. -/
theorem lays_align (placed : writer.Placed) (partly : writer.staged ≤ 8)
    (clean : writer.stage.toNat < 2 ^ writer.staged) (sound : writer.fault = none) :
    Lays writer (padding writer.bits.length) writer.align := by
  have inside := placed.inside
  have lengths := length_bits placed
  unfold align
  split
  next aligned =>
    rw [padding_of_aligned (by omega)]
    exact .fits (.refl ⟨placed, by omega, clean⟩ sound)
  next waiting =>
    dsimp only
    have missing : padding writer.bits.length = List.replicate (8 - writer.staged) false := by
      rw [padding, lengths]
      congr 1
      omega
    rw [missing]
    split
    next full =>
      simp only [remaining, capacity] at full inside
      refine .overflows (by simp only [fail, sound, Option.none_or]) ?_
      rw [List.length_replicate, capacity]
      omega
    next room =>
      let cleared := { writer with stage := 0, staged := 0 }
      have settled : cleared.Valid := ⟨⟨inside, placed.counted⟩, Nat.zero_lt_succ 7, Nat.one_pos⟩
      have enough : [writer.stage].length ≤ cleared.remaining := Nat.one_le_iff_ne_zero.mpr room
      have written := writes_store settled sound rfl enough
      refine .fits ⟨written.valid, sound, ?_, written.capacity, written.region, written.moved⟩
      have whole : lowBits writer.stage 8 =
          lowBits writer.stage writer.staged ++ List.replicate (8 - writer.staged) false := by
        rw [← lowBits_add_of_lt clean, Nat.add_sub_cancel' partly]
      have empty : cleared.bits = bitString writer.output := bits_of_aligned rfl
      rw [written.bits, empty, bitString_singleton, whole, ← List.append_assoc]
      rfl

theorem order_flush (writer : Writer) : writer.flush.order = writer.order := by
  unfold flush
  split
  · rfl
  · exact order_align writer

theorem order_put (writer : Writer) (field : Bytes) : (writer.put field).order = writer.order := by
  apply order_aligned
  intro ready
  split <;> rfl

theorem order_writeString (writer : Writer) (text : Bytes) (limit : Nat) :
    (writer.writeString text limit).order = writer.order := by
  apply order_aligned
  intro ready
  dsimp only
  split
  · rfl
  · split <;> rfl

theorem order_stageBits (writer : Writer) (bits : List Bool) :
    (writer.stageBits bits).order = writer.order := by
  induction bits generalizing writer with
  | nil => rfl
  | cons bit rest ih =>
    unfold stageBits
    split
    · rfl
    · refine (ih _).trans ?_
      unfold stageBit
      dsimp only
      split
      · exact order_align _
      · rfl

theorem order_writeBits (writer : Writer) (value : UInt8) (width : Nat) :
    (writer.writeBits value width).order = writer.order := by
  unfold writeBits
  split
  · rfl
  · split
    · rfl
    · exact order_stageBits writer _

theorem lays_flush (valid : writer.Valid) (sound : writer.fault = none) :
    Lays writer (padding writer.bits.length) writer.flush := by
  simp only [flush, sound, Option.isSome_none, Bool.false_eq_true, ↓reduceIte]
  exact lays_align valid.toPlaced valid.partly.le valid.clean sound

theorem fault_flush {fault : Fault} (failed : writer.fault = some fault) : writer.flush.fault = some fault := by
  simp only [flush, failed, Option.isSome_some, ↓reduceIte]

theorem flush_of_aligned (aligned : writer.staged = 0) : writer.flush = writer := by
  simp only [flush, align, aligned, ↓reduceIte, ite_self]

/-- On a byte boundary of a region the hook sees what has been committed, and nothing else. -/
theorem sign_of_signs (sound : writer.fault = none) (aligned : writer.staged = 0)
    (region : writer.inRegion = true) {hook : Signer} (signs : (hook.run writer.output).2 = true) :
    writer.sign hook =
      { writer with destination := .region ((hook.run writer.output).1 ++ writer.ahead) } := by
  have ready : writer.align = writer := by simp only [align, aligned, ↓reduceIte]
  cases kind : writer.destination with
  | sink emitted =>
    simp only [inRegion, kind] at region
    cases region
  | region bytes =>
    simp only [output, kind] at signs
    simp only [sign, Writer.aligned, sound, ready, Option.isSome_none, Bool.false_eq_true, ↓reduceIte,
      kind, signs, output, ahead]

theorem fault_sign_of_refuses (sound : writer.fault = none) (aligned : writer.staged = 0)
    (region : writer.inRegion = true) {hook : Signer} (refuses : (hook.run writer.output).2 = false) :
    (writer.sign hook).fault = some .noSign := by
  have ready : writer.align = writer := by simp only [align, aligned, ↓reduceIte]
  cases kind : writer.destination with
  | sink emitted =>
    simp only [inRegion, kind] at region
    cases region
  | region bytes =>
    simp only [output, kind] at refuses
    simp only [sign, Writer.aligned, sound, ready, Option.isSome_none, Bool.false_eq_true, ↓reduceIte,
      kind, refuses, fail, Option.none_or]

theorem staged_flush (sound : writer.fault = none) : writer.flush.staged = 0 := by
  simp only [flush, sound, Option.isSome_none, Bool.false_eq_true, ↓reduceIte, staged_align]

theorem outcome_eq_ok {length : Nat} :
    writer.outcome = .ok length ↔ writer.fault = none ∧ writer.position = length := by
  unfold outcome
  cases writer.fault <;> simp

theorem outcome_eq_error {fault : Fault} : writer.outcome = .error fault ↔ writer.fault = some fault := by
  unfold outcome
  cases writer.fault <;> simp

theorem sound_of_finish {length : Nat} (finished : writer.finish.2 = .ok length) : writer.fault = none := by
  have sound := (outcome_eq_ok.mp finished).1
  cases failed : writer.fault with
  | none => rfl
  | some fault => rw [fault_flush failed] at sound; cases sound

theorem writes_finish (valid : writer.Valid) {length : Nat} (finished : writer.finish.2 = .ok length) :
    Writes writer (padding writer.bits.length) writer.flush ∧ writer.flush.position = length := by
  obtain ⟨sound, position⟩ := outcome_eq_ok.mp finished
  exact ⟨(lays_flush valid (sound_of_finish finished)).writes sound, position⟩

theorem lays_aligned (valid : writer.Valid) (sound : writer.fault = none) {action : Writer → Writer}
    {added : List Bool} (acts : writer.align.Valid → writer.align.fault = none →
      Lays writer.align added (action writer.align)) :
    Lays writer (padding writer.bits.length ++ added) (writer.aligned action) := by
  simp only [aligned, sound, Option.isSome_none, Bool.false_eq_true, ↓reduceIte]
  apply (lays_align valid.toPlaced valid.partly.le valid.clean sound).then
  · intro fault failed
    simp only [failed, Option.isSome_some, ↓reduceIte]
  · intro written
    simp only [written.sound, Option.isSome_none, Bool.false_eq_true, ↓reduceIte]
    exact acts written.valid written.sound

theorem lays_of_short (valid : writer.Valid) (aligned : writer.staged = 0) {field : Bytes}
    (short : writer.remaining < field.length) {after : Writer} (fault : after.fault = some .bufferOverflow) :
    Lays writer (bitString field) after := by
  refine .overflows fault ?_
  have inside := valid.inside
  rw [length_bits valid.toPlaced, aligned, length_bitString]
  unfold remaining at short
  omega

theorem lays_put (valid : writer.Valid) (sound : writer.fault = none) (field : Bytes) :
    Lays writer (padding writer.bits.length ++ bitString field) (writer.put field) := by
  apply lays_aligned valid sound
  intro valid sound
  have aligned := staged_align writer
  split
  next short => exact lays_of_short valid aligned short (by simp only [fail, sound, Option.none_or])
  next room => exact .fits (writes_store valid sound aligned (Nat.le_of_not_lt room))

theorem lays_writeString (valid : writer.Valid) (sound : writer.fault = none) (text : Bytes) (limit : Nat) :
    Lays writer (padding writer.bits.length ++ bitString (textField text limit ++ [0]))
      (writer.writeString text limit) := by
  apply lays_aligned valid sound
  intro valid sound
  have aligned := staged_align writer
  dsimp only
  split
  next full =>
    apply lays_of_short valid aligned _ (by simp only [fail, sound, Option.none_or])
    simp only [full, List.length_append, List.length_singleton, Nat.zero_lt_succ]
  next room =>
    split
    next cut =>
      rw [List.length_take] at cut
      apply lays_of_short valid aligned _ (by simp only [fail, store, sound, Option.none_or])
      rw [List.length_append, List.length_singleton]
      omega
    next whole =>
      rw [List.length_take] at whole
      have kept : (textField text limit).take (writer.align.remaining - 1) = textField text limit :=
        List.take_of_length_le (by omega)
      rw [kept]
      apply Lays.fits
      apply writes_store valid sound aligned
      rw [List.length_append, List.length_singleton]
      omega

theorem lowBits_stage (partly : writer.staged < 8) (clean : writer.stage.toNat < 2 ^ writer.staged) (bit : Bool) :
    let mask : UInt8 := if bit then 1 <<< UInt8.ofNat writer.staged else 0
    lowBits (writer.stage ||| mask) (writer.staged + 1) = lowBits writer.stage writer.staged ++ [bit] ∧
      (writer.stage ||| mask).toNat < 2 ^ (writer.staged + 1) := by
  intro mask
  have weight : mask.toNat = if bit then 2 ^ writer.staged else 0 := by
    cases bit with
    | false => rfl
    | true =>
      have small : UInt8.toNat (UInt8.ofNat writer.staged) = writer.staged := by
        rw [UInt8.toNat_ofNat']; omega
      simp only [mask, ↓reduceIte, UInt8.toNat_shiftLeft, small, UInt8.toNat_one,
        Nat.mod_eq_of_lt partly, Nat.one_shiftLeft]
      exact Nat.mod_eq_of_lt (Nat.pow_lt_pow_right (by omega) partly)
  have below (index : Nat) (inside : index < writer.staged) : mask.toNat.testBit index = false := by
    rw [weight]
    split
    · exact Nat.testBit_two_pow_of_ne (by omega)
    · exact Nat.zero_testBit index
  have top : mask.toNat.testBit writer.staged = bit := by
    rw [weight]
    cases bit with
    | false => exact Nat.zero_testBit _
    | true => exact Nat.testBit_two_pow_self
  constructor
  · rw [lowBits_succ, UInt8.toNat_or, Nat.testBit_or, top, Nat.testBit_lt_two_pow clean, Bool.false_or]
    congr 1
    apply List.map_congr_left
    intro index inside
    rw [UInt8.toNat_or, Nat.testBit_or, below index (List.mem_range.mp inside), Bool.or_false]
  · rw [UInt8.toNat_or]
    apply Nat.or_lt_two_pow (clean.trans (Nat.pow_lt_pow_right (by omega) (by omega)))
    rw [weight]
    split
    · exact Nat.pow_lt_pow_right (by omega) (by omega)
    · exact Nat.two_pow_pos _

theorem lays_stageBit (valid : writer.Valid) (sound : writer.fault = none) (bit : Bool) :
    Lays writer [bit] (writer.stageBit bit) := by
  obtain ⟨lowest, clean⟩ := lowBits_stage valid.partly valid.clean bit
  have partly := valid.partly
  unfold stageBit
  dsimp only
  let mask : UInt8 := if bit then 1 <<< UInt8.ofNat writer.staged else 0
  let grown := { writer with stage := writer.stage ||| mask, staged := writer.staged + 1 }
  have grew : grown.bits = writer.bits ++ [bit] := by
    simp only [bits, List.append_assoc]
    exact congrArg _ lowest
  split
  next full =>
    have placed : grown.Placed := ⟨valid.inside, valid.counted⟩
    have whole : grown.staged = 8 := full
    have lengths := length_bits placed
    have laid := lays_align placed whole.le clean sound
    rw [padding_of_aligned (by omega)] at laid
    cases laid with
    | overflows fault short =>
      refine .overflows fault ?_
      rwa [grew, List.length_append, List.length_nil, Nat.add_zero] at short
    | fits written =>
      refine .fits ⟨written.valid, written.sound, ?_, written.capacity, written.region, written.moved⟩
      rw [written.bits, grew, List.append_nil]
  next more =>
    exact .fits ⟨⟨⟨valid.inside, valid.counted⟩, by dsimp only; omega, clean⟩, sound, grew, rfl, rfl,
      0, rfl, rfl⟩

theorem stageBits_of_fault {fault : Fault} (failed : writer.fault = some fault) (bits : List Bool) :
    writer.stageBits bits = writer := by
  cases bits with
  | nil => rfl
  | cons bit rest => simp only [stageBits, failed, Option.isSome_some, ↓reduceIte]

theorem lays_stageBits (valid : writer.Valid) (sound : writer.fault = none) (bits : List Bool) :
    Lays writer bits (writer.stageBits bits) := by
  induction bits generalizing writer with
  | nil => exact .fits (.refl valid sound)
  | cons bit rest ih =>
    simp only [stageBits, sound, Option.isSome_none, Bool.false_eq_true, ↓reduceIte]
    have first := lays_stageBit valid sound bit
    refine first.then ?_ fun written => ih written.valid written.sound
    intro fault failed
    rw [stageBits_of_fault failed, failed]

theorem lays_writeBits (valid : writer.Valid) (sound : writer.fault = none) (value : UInt8) {width : Nat}
    (least : 1 ≤ width) (most : width ≤ 8) : Lays writer (lowBits value width) (writer.writeBits value width) := by
  have allowed : ¬(width = 0 ∨ 8 < width) := by omega
  simp only [writeBits, sound, Option.isSome_none, Bool.false_eq_true, ↓reduceIte, allowed]
  exact lays_stageBits valid sound _

end Hopline.Codec.Writer
