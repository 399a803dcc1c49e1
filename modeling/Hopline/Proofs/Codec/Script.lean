import Hopline.Codec.Script
import Hopline.Proofs.Codec.Writer

/-! The layout of a message: what each step of a field script lays down behind the bits
before it. An encoding cursor lays out exactly this, or overflows where the bytes do not
fit. -/

namespace Hopline.Codec

/-- What one step lays down: bytes from the next byte boundary on, or loose bits. -/
inductive Item
  | field (bytes : Bytes)
  | loose (bits : List Bool)

def Item.bits (count : Nat) : Item → List Bool
  | .field bytes => padding count ++ bitString bytes
  | .loose bits => bits

namespace WriteStep

/-- The steps of a message: fields of legal width, flushes and changes of order. -/
def IsField : WriteStep → Prop
  | .bits _ width => 1 ≤ width ∧ width ≤ 8
  | .seek _ | .sign _ => False
  | _ => True

def item (order : ByteOrder) : WriteStep → Item
  | .unsigned8 value => .field [value]
  | .unsigned16 value => .field (order.arrange (littleEndian 2 value.toNat))
  | .unsigned32 value => .field (order.arrange (littleEndian 4 value.toNat))
  | .signed8 value => .field [value.toUInt8]
  | .signed16 value => .field (order.arrange (littleEndian 2 value.toUInt16.toNat))
  | .signed32 value => .field (order.arrange (littleEndian 4 value.toUInt32.toNat))
  | .bytes span => .field (order.arrange span)
  | .string text limit => .field (textField text limit ++ [0])
  | .bit value => .loose [value]
  | .bits value width => .loose (lowBits value width)
  | .flush => .field []
  | .seek _ | .flip | .order _ | .sign _ => .loose []

def orderAfter (order : ByteOrder) : WriteStep → ByteOrder
  | .flip => order.flipped
  | .order next => next
  | _ => order

end WriteStep

/-- The bits of a message behind `count` bits. -/
def layout (order : ByteOrder) (count : Nat) : List WriteStep → List Bool
  | [] => []
  | step :: rest =>
    let bits := (step.item order).bits count
    bits ++ layout (step.orderAfter order) (count + bits.length) rest

namespace Writer

variable {writer : Writer}

theorem order_perform (writer : Writer) {step : WriteStep} (field : step.IsField) :
    (writer.perform step).order = step.orderAfter writer.order := by
  cases step with
  | unsigned8 | unsigned16 | unsigned32 | signed8 | signed16 | signed32 | bytes =>
    exact order_put writer _
  | string text limit => exact order_writeString writer text limit
  | bit value => exact order_writeBits writer _ _
  | bits value width => exact order_writeBits writer _ _
  | flush => exact order_flush writer
  | flip | order next => rfl
  | seek delta | sign hook => exact field.elim

theorem lays_perform (valid : writer.Valid) (sound : writer.fault = none) {step : WriteStep}
    (field : step.IsField) :
    Lays writer ((step.item writer.order).bits writer.bits.length) (writer.perform step) := by
  cases step with
  | unsigned8 | unsigned16 | unsigned32 | signed8 | signed16 | signed32 | bytes =>
    exact lays_put valid sound _
  | string text limit => exact lays_writeString valid sound text limit
  | bit value =>
    have laid := lays_writeBits valid sound value.toUInt8 le_rfl (show 1 ≤ 8 by omega)
    have single : lowBits value.toUInt8 1 = [value] := by cases value <;> rfl
    rwa [single] at laid
  | bits value width => exact lays_writeBits valid sound value field.1 field.2
  | flush =>
    have laid := lays_flush valid sound
    rwa [← List.append_nil (padding _)] at laid
  | flip | order next =>
    exact .fits ⟨⟨⟨valid.inside, valid.counted⟩, valid.partly, valid.clean⟩, sound,
      (List.append_nil _).symm, rfl, rfl, 0, rfl, rfl⟩
  | seek delta | sign hook => exact field.elim

/-- Nothing moves a cursor once it has failed, and its fault stays. -/
theorem perform_of_fault {fault : Fault} (failed : writer.fault = some fault) (step : WriteStep) :
    writer.perform step = { writer with order := (writer.perform step).order } := by
  have stopped : writer.fault.isSome = true := by rw [failed, Option.isSome_some]
  have stuck (action : Writer → Writer) : writer.aligned action = writer := by
    simp only [aligned, stopped, ↓reduceIte]
  cases step with
  | bit | bits => simp only [perform, writeBit, writeBits, stopped, ↓reduceIte]
  | flush => simp only [perform, flush, stopped, ↓reduceIte]
  | flip | order => rfl
  | _ =>
    simp only [perform, write8, write16, write32, writeSigned8, writeSigned16, writeSigned32,
      writeBytes, writeString, put, seek, sign, stuck]

theorem fault_perform {fault : Fault} (failed : writer.fault = some fault) (step : WriteStep) :
    (writer.perform step).fault = some fault := by
  rw [perform_of_fault failed step]
  exact failed

theorem fault_run {fault : Fault} (failed : writer.fault = some fault) (script : List WriteStep) :
    (writer.run script).fault = some fault := by
  induction script generalizing writer with
  | nil => exact failed
  | cons step rest ih => exact ih (fault_perform failed step)

/-- A field script adds its layout, or it overflows. -/
theorem lays_run (valid : writer.Valid) (sound : writer.fault = none) {script : List WriteStep}
    (fields : ∀ step ∈ script, step.IsField) :
    Lays writer (layout writer.order writer.bits.length script) (writer.run script) := by
  induction script generalizing writer with
  | nil => exact .fits (.refl valid sound)
  | cons step rest ih =>
    have field := fields step List.mem_cons_self
    apply (lays_perform valid sound field).then
    · intro fault failed
      exact fault_run failed rest
    · intro written
      rw [← List.length_append, ← written.bits, ← order_perform writer field]
      exact ih written.valid written.sound fun later member => fields later (List.mem_cons_of_mem _ member)

end Writer

end Hopline.Codec
