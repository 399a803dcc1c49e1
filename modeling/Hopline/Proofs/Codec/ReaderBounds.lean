import Hopline.Proofs.Codec.ReaderStanding
import Hopline.Proofs.Codec.WriterBounds

/-! Decoding with every index, subtraction and shift checked. Bit-fields are put together by shifts
here, as a machine does it. On a cursor within its input nothing goes out of range, and each
operation leaves and yields what its unchecked counterpart does. -/

namespace Hopline.Codec.Reader

def remaining? (reader : Reader) : Option Nat := difference? reader.input.length reader.position

def take? (reader : Reader) (width : Nat) : Option (Reader × Option Bytes) :=
  let ready := reader.align
  if ready.fault.isSome then some (ready, none)
  else do
    let room ← ready.remaining?
    if room < width then some (ready.fail .bufferOverrun, none)
    else do
      let field ← slice? ready.input ready.position (ready.position + width)
      some ({ ready with position := ready.position + width }, some field)

/-- Reads a field of `width` bytes as the value that they denote in the present order. -/
def field? (reader : Reader) (width : Nat) (value : ByteOrder → Bytes → Value) : Option (Reader × Option Value) := do
  let (after, field) ← reader.take? width
  some (after, field.map (value after.order))

/-- Puts a text and the zero byte that ends it into a destination of `size` bytes. -/
def terminate? (size : Nat) (text : Bytes) : Option Bytes :=
  if text.length < size then some (text ++ [0]) else none

def readString? (reader : Reader) (size limit : Nat) : Option (Reader × Option Bytes) :=
  let ready := reader.align
  if ready.fault.isSome then some (ready, none)
  else if size = 0 then some (ready.fail .invalidArgument, none)
  else do
    let rest ← slice? ready.input ready.position ready.input.length
    let text := rest.takeWhile (· != 0)
    if text.length = rest.length then some (ready.fail .bufferOverrun, none)
    else do
      let wanted := limited text.length limit
      let kept := min wanted (← difference? size 1)
      let stored ← terminate? size (← slice? rest 0 kept)
      let after := { ready with position := ready.position + text.length + 1 }
      some (if kept < wanted then after.fail .bufferOverflow else after, some stored)

/-- Reads one bit as zero or one. -/
def readStagedBit? (reader : Reader) : Option (Reader × Option UInt8) :=
  if reader.staged = 0 then do
    let room ← reader.remaining?
    if room = 0 then some (reader.fail .bufferOverrun, none)
    else do
      let byte ← reader.input[reader.position]?
      let staged ← difference? 8 1
      some ({ reader with stage := byte >>> 1, staged, position := reader.position + 1 }, some (byte &&& 1))
  else do
    let staged ← difference? reader.staged 1
    some ({ reader with stage := reader.stage >>> 1, staged }, some (reader.stage &&& 1))

/-- Reads `count` bits into `sum`, from the bit `index` on. -/
def gather? (reader : Reader) (sum : UInt8) (index : Nat) : (count : Nat) → Option (Reader × Option UInt8)
  | 0 => some (reader, some sum)
  | count + 1 => do
    match ← reader.readStagedBit? with
    | (after, none) => some (after, none)
    | (after, some bit) => after.gather? (sum ||| (← shiftLeft? bit index)) (index + 1) count

def readBits? (reader : Reader) (width : Nat) : Option (Reader × Option UInt8) :=
  if reader.fault.isSome then some (reader, none)
  else if width = 0 ∨ 8 < width then some (reader.fail .invalidArgument, none)
  else reader.gather? 0 0 width

def validate? (reader : Reader) (hook : Validator) : Option Reader :=
  let ready := reader.align
  if ready.fault.isSome then some ready
  else do
    let span ← slice? ready.input 0 ready.position
    some (if hook span then ready else ready.fail .invalidData)

def perform? (reader : Reader) : ReadStep → Option (Reader × Option Value)
  | .unsigned8 => reader.field? 1 fun _ field => .number (UInt8.ofNat (ofLittleEndian field)).toNat
  | .unsigned16 => reader.field? 2 fun order field => .number (UInt16.ofNat (ofLittleEndian (order.arrange field))).toNat
  | .unsigned32 => reader.field? 4 fun order field => .number (UInt32.ofNat (ofLittleEndian (order.arrange field))).toNat
  | .signed8 => reader.field? 1 fun _ field => .number (UInt8.ofNat (ofLittleEndian field)).toInt8.toInt
  | .signed16 =>
    reader.field? 2 fun order field => .number (UInt16.ofNat (ofLittleEndian (order.arrange field))).toInt16.toInt
  | .signed32 =>
    reader.field? 4 fun order field => .number (UInt32.ofNat (ofLittleEndian (order.arrange field))).toInt32.toInt
  | .bytes width => reader.field? width fun order field => .bytes (order.arrange field)
  | .string size limit => do
    let (after, stored) ← reader.readString? size limit
    some (after, stored.map .bytes)
  | .bit => do
    let (after, value) ← reader.readBits? 1
    some (after, value.map fun value => .bit (value != 0))
  | .bits width => do
    let (after, value) ← reader.readBits? width
    some (after, value.map fun value => .number value.toNat)
  | .align => some (reader.align, none)
  -- moving the cursor is clamped, so nothing in it can go out of range
  | .seek delta => some (reader.seek delta, none)
  | .flip => some (reader.flip, none)
  | .order order => some (reader.setOrder order, none)
  | .validate hook => do
    let after ← reader.validate? hook
    some (after, none)

def run? (reader : Reader) : (script : List ReadStep) → Option (Reader × List (Option Value))
  | [] => some (reader, [])
  | step :: rest => do
    let (after, value) ← reader.perform? step
    let (last, values) ← after.run? rest
    some (last, value :: values)

variable {reader : Reader}

theorem remaining?_eq (valid : reader.Valid) : reader.remaining? = some reader.remaining :=
  difference?_of_le valid.inside

theorem slice?_rest (valid : reader.Valid) : slice? reader.input reader.position reader.input.length = some reader.rest := by
  simp [slice?, valid.inside, rest]

theorem slice?_field (valid : reader.Valid) {width : Nat} (room : width ≤ reader.remaining) :
    slice? reader.input reader.position (reader.position + width) = some (reader.rest.take width) := by
  have inside : reader.position + width ≤ reader.input.length := by
    have := valid.inside
    simp only [remaining, capacity] at room
    omega
  simp [slice?, inside, rest, List.drop_take]

theorem take?_eq (valid : reader.Valid) (width : Nat) : reader.take? width = some (reader.take width) := by
  have ready := valid_align valid
  unfold take? take
  dsimp only
  split
  · rfl
  · simp only [remaining?_eq ready, Option.bind_eq_bind, Option.bind_some]
    split
    · rfl
    next room => simp only [slice?_field ready (Nat.le_of_not_lt room), Option.bind_some]

theorem field?_eq (valid : reader.Valid) (width : Nat) (value : ByteOrder → Bytes → Value) :
    reader.field? width value =
      some ((reader.take width).1, (reader.take width).2.map (value (reader.take width).1.order)) := by
  simp only [field?, take?_eq valid, Option.bind_eq_bind, Option.bind_some]

theorem readString?_eq (valid : reader.Valid) (size limit : Nat) :
    reader.readString? size limit = some (reader.readString size limit) := by
  have ready := valid_align valid
  unfold readString? readString
  dsimp only
  split
  · rfl
  · split
    · rfl
    next sized =>
      simp only [slice?_rest ready, Option.bind_eq_bind, Option.bind_some]
      split
      · rfl
      next ended =>
        obtain ⟨rest, found⟩ := exists_terminated ended
        generalize reader.align.rest.takeWhile (· != 0) = text at found ⊢
        have shorter := limited_le text.length limit
        generalize limited text.length limit = wanted at shorter ⊢
        have least : 1 ≤ size := Nat.one_le_iff_ne_zero.mpr sized
        have within : min wanted (size - 1) ≤ text.length := (Nat.min_le_left _ _).trans shorter
        have inside : min wanted (size - 1) ≤ reader.align.rest.length := by
          rw [found, List.length_append]
          omega
        have front : reader.align.rest.take (min wanted (size - 1)) = text.take (min wanted (size - 1)) := by
          rw [found, List.take_append_of_le_length within]
        have cut : (text.take wanted).take (size - 1) = text.take (min wanted (size - 1)) := by
          rw [List.take_take, Nat.min_comm]
        have length : (text.take (min wanted (size - 1))).length = min wanted (size - 1) :=
          List.length_take_of_le within
        have fits : min wanted (size - 1) < size := by omega
        simp only [difference?_of_le least, Option.bind_some, slice?_zero inside, front, terminate?, length, fits,
          ↓reduceIte, cut, List.length_take_of_le shorter]

/-- The lowest bit of a byte, as a number and as a truth value. -/
theorem and_one_eq (byte : UInt8) : byte &&& 1 = (byte &&& 1 == 1).toUInt8 := by
  have bit : (byte &&& 1).toNat = byte.toNat % 2 := by
    rw [UInt8.toNat_and, UInt8.toNat_one, Nat.and_one_is_mod]
  rcases Nat.mod_two_eq_zero_or_one byte.toNat with even | odd
  · have zero : byte &&& 1 = 0 := UInt8.toNat_inj.mp (bit.trans even)
    rw [zero]
    rfl
  · have one : byte &&& 1 = 1 := UInt8.toNat_inj.mp (bit.trans odd)
    rw [one]
    rfl

/-- One more bit above the bits that have been gathered. -/
theorem or_shiftLeft_eq {bits : List Bool} (narrow : bits.length < 8) (bit : Bool) :
    UInt8.ofNat (ofBits bits) ||| bit.toUInt8 <<< UInt8.ofNat bits.length = UInt8.ofNat (ofBits (bits ++ [bit])) := by
  have below := ofBits_lt bits
  have amount : (UInt8.ofNat bits.length).toNat % 8 = bits.length := by
    rw [UInt8.toNat_ofNat']
    omega
  have weight : (bit.toUInt8 <<< UInt8.ofNat bits.length).toNat = bit.toNat <<< bits.length := by
    have small : bit.toNat <<< bits.length < 2 ^ 8 := by
      rw [Nat.shiftLeft_eq]
      have := Nat.pow_lt_pow_right (show 1 < 2 by omega) narrow
      cases bit <;> simp; omega
    have number : bit.toUInt8.toNat = bit.toNat := by cases bit <;> rfl
    rw [UInt8.toNat_shiftLeft, amount, number, Nat.mod_eq_of_lt small]
  have longer : (bits ++ [bit]).length ≤ 8 := by
    rw [List.length_append, List.length_singleton]
    exact narrow
  rw [← UInt8.toNat_inj, UInt8.toNat_or, weight, toNat_ofBits narrow.le, toNat_ofBits longer, ofBits_append,
    Nat.or_comm, ← Nat.shiftLeft_add_eq_or_of_lt below, Nat.shiftLeft_eq, Nat.add_comm, Nat.mul_comm]
  simp [ofBits]

theorem readStagedBit?_eq (valid : reader.Valid) :
    reader.readStagedBit? = some (reader.readStagedBit.1, reader.readStagedBit.2.map Bool.toUInt8) := by
  unfold readStagedBit?
  split
  next aligned =>
    simp only [remaining?_eq valid, Option.bind_eq_bind, Option.bind_some]
    have lengths := length_rest reader
    cases fetched : reader.rest with
    | nil =>
      rw [fetched] at lengths
      simp [readStagedBit, aligned, fetched, ← lengths]
    | cons byte rest =>
      rw [fetched, List.length_cons] at lengths
      have here : reader.input[reader.position]? = some byte := by
        rw [← List.head?_drop]
        exact congrArg List.head? fetched
      rw [if_neg (by omega), here, readStagedBit_of_fetched aligned fetched]
      simp only [Option.bind_some, difference?_of_le (show 1 ≤ 8 by omega), ← and_one_eq, Option.map_some]
  next waiting =>
    simp only [difference?_of_le (Nat.one_le_iff_ne_zero.mpr waiting), Option.bind_eq_bind, Option.bind_some,
      readStagedBit_of_waiting waiting, Option.map_some, ← and_one_eq]

theorem valid_readStagedBit (valid : reader.Valid) : reader.readStagedBit.1.Valid := by
  have partly := valid.partly
  by_cases aligned : reader.staged = 0
  · cases fetched : reader.rest with
    | nil =>
      simp only [readStagedBit, aligned, fetched, ↓reduceIte]
      exact (stays_fail valid .bufferOverrun (by simp)).valid
    | cons byte rest =>
      rw [readStagedBit_of_fetched aligned fetched]
      have inside : reader.position + 1 ≤ reader.input.length :=
        inside_of_rest valid (fetched.trans (List.singleton_append (l := rest)).symm)
      exact ⟨inside, Nat.lt_succ_self 7⟩
  · rw [readStagedBit_of_waiting aligned]
    exact ⟨valid.inside, by dsimp only; omega⟩

theorem gather?_eq (valid : reader.Valid) (bits : List Bool) {count : Nat} (narrow : bits.length + count ≤ 8) :
    reader.gather? (UInt8.ofNat (ofBits bits)) bits.length count =
      some ((reader.readStagedBits count).1,
        (reader.readStagedBits count).2.map fun more => UInt8.ofNat (ofBits (bits ++ more))) := by
  induction count generalizing reader bits with
  | zero => simp [gather?, readStagedBits]
  | succ count ih =>
    have valid' := valid_readStagedBit valid
    simp only [gather?, readStagedBit?_eq valid, Option.bind_eq_bind, Option.bind_some]
    obtain ⟨⟨next, bit⟩, read⟩ : ∃ result, reader.readStagedBit = result := ⟨_, rfl⟩
    rw [read] at valid' ⊢
    cases bit with
    | none => simp [readStagedBits, read]
    | some bit =>
      have grown := or_shiftLeft_eq (show bits.length < 8 by omega) bit
      have length : (bits ++ [bit]).length = bits.length + 1 := by simp
      have later := ih valid' (bits ++ [bit]) (by omega)
      rw [length] at later
      simp only [Option.map_some, shiftLeft?_of_lt _ (show bits.length < 8 by omega), Option.bind_some, grown, later,
        readStagedBits_succ read, Option.map_map]
      simp only [Function.comp_def, List.append_assoc, List.singleton_append]

theorem readBits?_eq (valid : reader.Valid) (width : Nat) :
    reader.readBits? width = some (reader.readBits width) := by
  unfold readBits? readBits
  split
  · rfl
  · split
    · rfl
    next allowed => exact gather?_eq valid [] (show 0 + width ≤ 8 by omega)

theorem validate?_eq (valid : reader.Valid) (hook : Validator) :
    reader.validate? hook = some (reader.validate hook) := by
  unfold validate? validate
  dsimp only
  split
  · rfl
  · simp only [slice?_zero (valid_align valid).inside, Option.bind_eq_bind, Option.bind_some]
    rfl

theorem perform?_eq (valid : reader.Valid) (step : ReadStep) : reader.perform? step = some (reader.perform step) := by
  cases step with
  | unsigned8 | unsigned16 | unsigned32 | signed8 | signed16 | signed32 | bytes =>
    rw [perform?, field?_eq valid]
    simp only [perform, read8, read16, read32, readSigned8, readSigned16, readSigned32, readBytes]
    generalize reader.take _ = read
    rcases read with ⟨after, _ | field⟩ <;> rfl
  | string size limit => simp only [perform?, readString?_eq valid, Option.bind_eq_bind, Option.bind_some]; rfl
  | bit =>
    simp only [perform?, readBits?_eq valid, Option.bind_eq_bind, Option.bind_some, perform, readBit]
    generalize reader.readBits 1 = read
    rcases read with ⟨after, _ | value⟩ <;> rfl
  | bits width => simp only [perform?, readBits?_eq valid, Option.bind_eq_bind, Option.bind_some]; rfl
  | validate hook => simp only [perform?, validate?_eq valid, Option.bind_eq_bind, Option.bind_some]; rfl
  | align | seek | flip | order => rfl

theorem run?_eq (valid : reader.Valid) (script : List ReadStep) : reader.run? script = some (reader.run script) := by
  induction script generalizing reader with
  | nil => rfl
  | cons step rest ih =>
    simp only [run?, perform?_eq valid step, ih (stands_perform valid step).1, Option.bind_eq_bind, Option.bind_some]
    rfl

end Hopline.Codec.Reader
