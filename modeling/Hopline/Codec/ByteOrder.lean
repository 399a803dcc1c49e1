import Hopline.Bytes

/-! Byte orders. The native order is little-endian, so a field in the other order
is the same field with its bytes turned round. -/

namespace Hopline.Codec

inductive ByteOrder
  | little
  | big
deriving DecidableEq, Inhabited

/-- The order in force until a cursor is told otherwise. -/
def ByteOrder.native : ByteOrder := .little

def ByteOrder.flipped : ByteOrder → ByteOrder
  | .little => .big
  | .big => .little

def ByteOrder.isNative (order : ByteOrder) : Bool := order == .native

/-- Puts the bytes of a field, given in native order, into `order`. Doing so
twice changes nothing, so the same function also reads a field. -/
def ByteOrder.arrange (order : ByteOrder) (field : Bytes) : Bytes :=
  if order.isNative then field else field.reverse

def ByteOrder.name : ByteOrder → String
  | .little => "Little"
  | .big => "Big"

theorem ByteOrder.flipped_flipped (order : ByteOrder) : order.flipped.flipped = order := by
  cases order <;> rfl

theorem ByteOrder.arrange_arrange (order : ByteOrder) (field : Bytes) :
    order.arrange (order.arrange field) = field := by
  cases order <;> simp [arrange, isNative, native]

theorem ByteOrder.length_arrange (order : ByteOrder) (field : Bytes) :
    (order.arrange field).length = field.length := by
  unfold arrange
  split
  · rfl
  · exact List.length_reverse

end Hopline.Codec
