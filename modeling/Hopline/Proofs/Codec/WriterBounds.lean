import Hopline.Proofs.Codec.Standing

/-! Encoding with every index, subtraction and shift checked. The operations lay bytes down one
at a time here and give up at the first number that is out of range. None of them does so on a
cursor that is in order, and each leaves what its unchecked counterpart leaves. -/

namespace Hopline.Codec

def difference? (whole part : Nat) : Option Nat := if part ≤ whole then some (whole - part) else none

/-- The bytes of a span from `start` up to `stop`. -/
def slice? (span : Bytes) (start stop : Nat) : Option Bytes :=
  if start ≤ stop ∧ stop ≤ span.length then some ((span.take stop).drop start) else none

def shiftLeft? (byte : UInt8) (count : Nat) : Option UInt8 :=
  if count < 8 then some (byte <<< UInt8.ofNat count) else none

def shiftRight? (byte : UInt8) (count : Nat) : Option UInt8 :=
  if count < 8 then some (byte >>> UInt8.ofNat count) else none

theorem difference?_of_le {whole part : Nat} (within : part ≤ whole) :
    difference? whole part = some (whole - part) := if_pos within

theorem slice?_zero {span : Bytes} {stop : Nat} (within : stop ≤ span.length) :
    slice? span 0 stop = some (span.take stop) := by
  simp [slice?, within]

theorem shiftLeft?_of_lt (byte : UInt8) {count : Nat} (narrow : count < 8) :
    shiftLeft? byte count = some (byte <<< UInt8.ofNat count) := if_pos narrow

theorem shiftRight?_of_lt (byte : UInt8) {count : Nat} (narrow : count < 8) :
    shiftRight? byte count = some (byte >>> UInt8.ofNat count) := if_pos narrow

/-- The lowest bit of a byte that has been shifted down. -/
theorem lowest_shiftRight (value : UInt8) {index : Nat} (narrow : index < 8) :
    (value >>> UInt8.ofNat index) &&& 1 = (value.toNat.testBit index).toUInt8 := by
  have small : (UInt8.ofNat index).toNat % 8 = index := by
    rw [UInt8.toNat_ofNat']
    omega
  have bit : (value.toNat.testBit index).toUInt8.toNat = (value.toNat.testBit index).toNat := by
    cases value.toNat.testBit index <;> rfl
  rw [← UInt8.toNat_inj, bit, Nat.toNat_testBit, UInt8.toNat_and, UInt8.toNat_shiftRight, small, UInt8.toNat_one,
    Nat.and_one_is_mod, Nat.shiftRight_eq_div_pow]

theorem Destination.place_place {destination : Destination} {position : Nat}
    (inside : position ≤ destination.capacity) (first second : Bytes) :
    (destination.place position first).place (position + first.length) second =
      destination.place position (first ++ second) := by
  cases destination with
  | sink emitted => simp only [place, List.append_assoc]
  | region bytes =>
    have front : (bytes.take position ++ first).length = position + first.length := by
      rw [List.length_append, List.length_take_of_le inside]
    simp only [place, Destination.region.injEq, List.length_append, ← Nat.add_assoc]
    rw [List.take_left' front, List.append_assoc _ first second]
    congr 1
    rw [List.drop_append, front, List.drop_eq_nil_of_le (by omega), List.drop_drop, List.nil_append]
    congr 1
    omega

namespace Writer

def remaining? (writer : Writer) : Option Nat := difference? writer.capacity writer.position

def storeByte? (writer : Writer) (byte : UInt8) : Option Writer :=
  match writer.destination with
  | .region bytes =>
    if writer.position < bytes.length then
      some { writer with
        destination := .region (bytes.set writer.position byte)
        position := writer.position + 1 }
    else none
  | .sink emitted =>
    some { writer with destination := .sink (emitted ++ [byte]), position := writer.position + 1 }

def store? (writer : Writer) : (field : Bytes) → Option Writer
  | [] => some writer
  | byte :: rest => do (← writer.storeByte? byte).store? rest

def align? (writer : Writer) : Option Writer :=
  if writer.staged = 0 then some writer
  else do
    let byte := writer.stage
    let cleared := { writer with stage := 0, staged := 0 }
    let room ← cleared.remaining?
    if room = 0 then some (cleared.fail .bufferOverflow) else cleared.storeByte? byte

def aligned? (writer : Writer) (action : Writer → Option Writer) : Option Writer :=
  if writer.fault.isSome then some writer
  else do
    let ready ← writer.align?
    if ready.fault.isSome then some ready else action ready

def put? (writer : Writer) (field : Bytes) : Option Writer :=
  writer.aligned? fun ready => do
    let room ← ready.remaining?
    if room < field.length then some (ready.fail .bufferOverflow) else ready.store? field

def writeString? (writer : Writer) (text : Bytes) (limit : Nat) : Option Writer :=
  writer.aligned? fun ready => do
    let text := text.takeWhile (· != 0)
    let wanted := limited text.length limit
    let room ← ready.remaining?
    if room = 0 then some (ready.fail .bufferOverflow)
    else do
      let fits := min wanted (← difference? room 1)
      let kept ← slice? text 0 fits
      let ended ← ready.store? (kept ++ [0])
      some (if fits < wanted then ended.fail .bufferOverflow else ended)

/-- Stages a bit that is given as zero or one. -/
def stageBit? (writer : Writer) (bit : UInt8) : Option Writer := do
  let mask ← shiftLeft? bit writer.staged
  let grown := { writer with stage := writer.stage ||| mask, staged := writer.staged + 1 }
  if grown.staged = 8 then grown.align? else some grown

/-- Stages `count` bits of `value` from the bit `index` on. -/
def stageBits? (writer : Writer) (value : UInt8) (index : Nat) : (count : Nat) → Option Writer
  | 0 => some writer
  | count + 1 =>
    if writer.fault.isSome then some writer
    else do
      let shifted ← shiftRight? value index
      (← writer.stageBit? (shifted &&& 1)).stageBits? value (index + 1) count

def writeBits? (writer : Writer) (value : UInt8) (width : Nat) : Option Writer :=
  if writer.fault.isSome then some writer
  else if width = 0 ∨ 8 < width then some (writer.fail .invalidArgument)
  else writer.stageBits? value 0 width

def flush? (writer : Writer) : Option Writer := if writer.fault.isSome then some writer else writer.align?

def sign? (writer : Writer) (hook : Signer) : Option Writer :=
  writer.aligned? fun ready =>
    match ready.destination with
    | .sink _ => some (ready.fail .notReady)
    | .region bytes => do
      let (span, signed) := hook.run (← slice? bytes 0 ready.position)
      let patched := { ready with destination := .region (span ++ bytes.drop ready.position) }
      some (if signed then patched else patched.fail .noSign)

/-- The move itself is clamped, so nothing in it can go out of range. -/
def seek? (writer : Writer) (delta : Int) : Option Writer :=
  writer.aligned? fun ready =>
    match ready.destination with
    | .sink _ => some (if delta = 0 then ready else ready.fail .notReady)
    | .region bytes => some { ready with position := min (ready.position + delta).toNat bytes.length }

def perform? (writer : Writer) : WriteStep → Option Writer
  | .unsigned8 value => writer.put? [value]
  | .unsigned16 value => writer.put? (writer.order.arrange (littleEndian 2 value.toNat))
  | .unsigned32 value => writer.put? (writer.order.arrange (littleEndian 4 value.toNat))
  | .signed8 value => writer.put? [value.toUInt8]
  | .signed16 value => writer.put? (writer.order.arrange (littleEndian 2 value.toUInt16.toNat))
  | .signed32 value => writer.put? (writer.order.arrange (littleEndian 4 value.toUInt32.toNat))
  | .bytes span => writer.put? (writer.order.arrange span)
  | .string text limit => writer.writeString? text limit
  | .bit value => writer.writeBits? value.toUInt8 1
  | .bits value width => writer.writeBits? value width
  | .flush => writer.flush?
  | .seek delta => writer.seek? delta
  | .flip => some writer.flip
  | .order order => some (writer.setOrder order)
  | .sign hook => writer.sign? hook

def run? (writer : Writer) : (script : List WriteStep) → Option Writer
  | [] => some writer
  | step :: rest => do (← writer.perform? step).run? rest

variable {writer : Writer}

theorem remaining?_eq (placed : writer.Placed) : writer.remaining? = some writer.remaining :=
  difference?_of_le placed.inside

theorem storeByte?_eq (byte : UInt8) (room : 1 ≤ writer.remaining) :
    writer.storeByte? byte = some (writer.store [byte]) := by
  cases kind : writer.destination with
  | sink emitted => simp [storeByte?, store, kind, Destination.place]
  | region bytes =>
    have inside : writer.position < bytes.length := by
      simp only [remaining, capacity, kind, Destination.capacity] at room
      omega
    simp [storeByte?, store, kind, Destination.place, inside, List.set_eq_take_append_cons_drop]

/-- Bytes that are laid down one at a time lie as they do when they are laid down at once. -/
theorem store?_eq (placed : writer.Placed) {field : Bytes} (room : field.length ≤ writer.remaining) :
    writer.store? field = some (writer.store field) := by
  induction field generalizing writer with
  | nil =>
    have nothing : writer.destination.place writer.position [] = writer.destination := by
      cases writer.destination <;> simp [Destination.place]
    simp [store?, store, nothing]
  | cons byte rest ih =>
    have first : [byte].length ≤ writer.remaining := Nat.le_trans (by simp) room
    obtain ⟨placed', -⟩ := placed_store placed first
    have left : rest.length ≤ (writer.store [byte]).remaining := by
      rw [remaining_store placed first]
      simp only [List.length_cons, List.length_nil] at room ⊢
      omega
    have both : (writer.store [byte]).store rest = writer.store (byte :: rest) := by
      have laid := Destination.place_place placed.inside [byte] rest
      simp only [List.length_singleton, List.singleton_append] at laid
      simp [store, laid, Nat.add_comm, Nat.add_left_comm]
    simp [store?, storeByte?_eq byte first, ih placed' left, both]

theorem align?_eq (placed : writer.Placed) : writer.align? = some writer.align := by
  let cleared := { writer with stage := 0, staged := 0 }
  have room : cleared.remaining? = some cleared.remaining := difference?_of_le placed.inside
  unfold align? align
  split
  next => rfl
  next =>
    dsimp only
    simp only [cleared] at room
    rw [room]
    split
    next full => simp [full]
    next space => simpa [space] using storeByte?_eq writer.stage (Nat.one_le_iff_ne_zero.mpr space)

theorem flush?_eq (placed : writer.Placed) : writer.flush? = some writer.flush := by
  unfold flush? flush
  split
  · rfl
  · exact align?_eq placed

theorem aligned?_eq (valid : writer.Valid) {action? : Writer → Option Writer} {action : Writer → Writer}
    (acts : ∀ ready : Writer, ready.Valid → action? ready = some (action ready)) :
    writer.aligned? action? = some (writer.aligned action) := by
  have ready := (keeps_align valid.toPlaced valid.clean).valid
  unfold aligned? aligned
  split
  · rfl
  · simp only [align?_eq valid.toPlaced, Option.bind_eq_bind, Option.bind_some]
    split
    · rfl
    · exact acts _ ready

theorem put?_eq (valid : writer.Valid) (field : Bytes) : writer.put? field = some (writer.put field) := by
  apply aligned?_eq valid
  intro ready valid
  simp only [remaining?_eq valid.toPlaced, Option.bind_eq_bind, Option.bind_some]
  split
  · rfl
  next room => exact store?_eq valid.toPlaced (Nat.le_of_not_lt room)

theorem writeString?_eq (valid : writer.Valid) (text : Bytes) (limit : Nat) :
    writer.writeString? text limit = some (writer.writeString text limit) := by
  apply aligned?_eq valid
  intro ready valid
  simp only [remaining?_eq valid.toPlaced, Option.bind_eq_bind, Option.bind_some]
  split
  · rfl
  next room =>
    let front := text.takeWhile (· != 0)
    let wanted := limited front.length limit
    let fits := min wanted (ready.remaining - 1)
    have least : 1 ≤ ready.remaining := Nat.one_le_iff_ne_zero.mpr room
    have shorter : wanted ≤ front.length := limited_le front.length limit
    have within : fits ≤ front.length := (Nat.min_le_left _ _).trans shorter
    have kept : (textField text limit).take (ready.remaining - 1) = front.take fits := by
      simp only [textField, List.take_take, front, fits, wanted, Nat.min_comm]
    have size : (front.take fits).length = fits := List.length_take_of_le within
    have whole : (textField text limit).length = wanted := List.length_take_of_le shorter
    have ended : (front.take fits ++ [0]).length ≤ ready.remaining := by
      rw [List.length_append, size, List.length_singleton]
      omega
    rw [difference?_of_le least]
    simp only [Option.bind_some]
    rw [slice?_zero within]
    simp only [Option.bind_some]
    rw [store?_eq valid.toPlaced ended, kept, size, whole]
    rfl

theorem stageBit?_eq (valid : writer.Valid) (bit : Bool) :
    writer.stageBit? bit.toUInt8 = some (writer.stageBit bit) := by
  have mask : bit.toUInt8 <<< UInt8.ofNat writer.staged = if bit then 1 <<< UInt8.ofNat writer.staged else 0 := by
    cases bit with
    | true => rfl
    | false => exact UInt8.zero_shiftLeft
  simp only [stageBit?, shiftLeft?_of_lt _ valid.partly, Option.bind_eq_bind, Option.bind_some, mask, stageBit]
  split
  · exact align?_eq ⟨valid.inside, valid.counted⟩
  · rfl

theorem stageBits?_eq (valid : writer.Valid) (value : UInt8) {index count : Nat} (narrow : index + count ≤ 8) :
    writer.stageBits? value index count =
      some (writer.stageBits ((List.range' index count).map value.toNat.testBit)) := by
  induction count generalizing writer index with
  | zero => rfl
  | succ count ih =>
    have bit := lowest_shiftRight value (show index < 8 by omega)
    have staged := (keeps_stageBit valid (value.toNat.testBit index)).valid
    simp only [stageBits?, List.range'_succ, List.map_cons, stageBits]
    split
    · rfl
    · simp only [shiftRight?_of_lt value (show index < 8 by omega), bit, stageBit?_eq valid,
        Option.bind_eq_bind, Option.bind_some]
      exact ih staged (by omega)

theorem writeBits?_eq (valid : writer.Valid) (value : UInt8) (width : Nat) :
    writer.writeBits? value width = some (writer.writeBits value width) := by
  unfold writeBits? writeBits
  split
  · rfl
  · split
    · rfl
    next allowed =>
      rw [stageBits?_eq valid value (show 0 + width ≤ 8 by omega), lowBits, List.range_eq_range']

theorem sign?_eq (valid : writer.Valid) (hook : Signer) : writer.sign? hook = some (writer.sign hook) := by
  apply aligned?_eq valid
  intro ready valid
  cases kind : ready.destination with
  | sink emitted => rfl
  | region bytes =>
    have inside : ready.position ≤ bytes.length := by
      simpa only [capacity, kind, Destination.capacity] using valid.inside
    simp only [slice?_zero inside, Option.bind_eq_bind, Option.bind_some]

theorem seek?_eq (valid : writer.Valid) (delta : Int) : writer.seek? delta = some (writer.seek delta) := by
  apply aligned?_eq valid
  intro ready _
  cases ready.destination <;> rfl

theorem perform?_eq (valid : writer.Valid) (step : WriteStep) : writer.perform? step = some (writer.perform step) := by
  cases step with
  | unsigned8 | unsigned16 | unsigned32 | signed8 | signed16 | signed32 | bytes => exact put?_eq valid _
  | string text limit => exact writeString?_eq valid text limit
  | bit value => exact writeBits?_eq valid _ 1
  | bits value width => exact writeBits?_eq valid value width
  | flush => exact flush?_eq valid.toPlaced
  | seek delta => exact seek?_eq valid delta
  | sign hook => exact sign?_eq valid hook
  | flip | order next => rfl

/-- Nothing goes out of range in any script. -/
theorem run?_eq (valid : writer.Valid) (script : List WriteStep) : writer.run? script = some (writer.run script) := by
  induction script generalizing writer with
  | nil => rfl
  | cons step rest ih =>
    simp only [run?, perform?_eq valid step, Option.bind_eq_bind, Option.bind_some]
    exact ih (keeps_perform valid step).valid

end Writer

end Hopline.Codec
