/-! Byte strings and fixed-width numbers. A number of a given width is a list of
that many base-256 digits, least significant first, so reading the digits back
gives the number modulo the width. -/

namespace Hopline

abbrev Bytes := List UInt8

/-- The `width` base-256 digits of `value`, least significant first; higher
digits are dropped. -/
def littleEndian : (width : Nat) → (value : Nat) → Bytes
  | 0, _ => []
  | width + 1, value => UInt8.ofNat value :: littleEndian width (value / 256)

def ofLittleEndian : Bytes → Nat
  | [] => 0
  | digit :: rest => digit.toNat + 256 * ofLittleEndian rest

theorem length_littleEndian (width value : Nat) : (littleEndian width value).length = width := by
  induction width generalizing value with
  | zero => rfl
  | succ width ih => simp only [littleEndian, List.length_cons, ih]

def lowBits (value : UInt8) (width : Nat) : List Bool :=
  (List.range width).map value.toNat.testBit

def ofBits : List Bool → Nat
  | [] => 0
  | bit :: rest => bit.toNat + 2 * ofBits rest

theorem length_lowBits (value : UInt8) (width : Nat) : (lowBits value width).length = width := by
  simp only [lowBits, List.length_map, List.length_range]

end Hopline
